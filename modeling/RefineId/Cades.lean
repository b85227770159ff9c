/-
  RefineId.Cades — writing a signed message around a card's signature.
  ════════════════════════════════════════════════════════════════════════════

  `crates/refineid-doc-sign/src/cades.rs`: the attributes a card signs, and the CMS
  structure its signature goes into.  `none` is the source's panic on a length above
  `u32::MAX`.

  Main results:
    • `signedData_longer` : the structure is longer than the signature it carries, so the
                            two are never the same octets.
-/
import RefineId.ChainWalk

namespace RefineId

namespace Cades

open Ber

/-! ## §1. Algorithms -/

/-- `DigestAlgorithm`. -/
inductive DigestAlgorithm where
  | sha256
  | sha384
  deriving Repr, DecidableEq

/-- `DigestAlgorithm::digest`. -/
def DigestAlgorithm.digest (E : Externals) : DigestAlgorithm → Bytes → Bytes
  | .sha256, input => E.sha2 .sha256 input
  | .sha384, input => E.sha2 .sha384 input

/-- `DigestAlgorithm::oid`. -/
def DigestAlgorithm.oid : DigestAlgorithm → Bytes
  | .sha256 => Oid.sha256
  | .sha384 => Oid.sha384

/-- `DigestAlgorithm::algorithm_identifier`. -/
def DigestAlgorithm.algorithmIdentifier (algorithm : DigestAlgorithm) : Option Bytes := do
  tlv 0x30 (← tlv 0x06 algorithm.oid)

/-- `SignatureAlgorithm`. -/
inductive SignatureAlgorithm where
  | rsaPkcs1Sha256
  | rsaPkcs1Sha384
  | ecdsaSha256
  | ecdsaSha384
  deriving Repr, DecidableEq

/-- `SignatureAlgorithm::rsa_identifier`: the OID and the mandatory NULL. -/
def rsaIdentifier (algorithm : Bytes) : Option Bytes := do
  tlv 0x30 ((← tlv 0x06 algorithm) ++ [0x05, 0x00])

/-- `SignatureAlgorithm::algorithm_identifier`. -/
def SignatureAlgorithm.algorithmIdentifier : SignatureAlgorithm → Option Bytes
  | .rsaPkcs1Sha256 => rsaIdentifier Oid.sha256WithRsa
  | .rsaPkcs1Sha384 => rsaIdentifier Oid.sha384WithRsa
  | .ecdsaSha256 => do tlv 0x30 (← tlv 0x06 Oid.ecdsaWithSha256)
  | .ecdsaSha384 => do tlv 0x30 (← tlv 0x06 Oid.ecdsaWithSha384)

/-- `Encapsulation`. -/
inductive Encapsulation where
  | detached
  | attached
  deriving Repr, DecidableEq

/-! ## §2. The signer -/

/-- `SigningTime`. -/
structure SigningTime where
  year : Nat
  month : Nat
  day : Nat
  hour : Nat
  minute : Nat
  second : Nat
  deriving Repr, DecidableEq

/-- `SigningTime::push_pair`. -/
def pair (value : Nat) : Bytes :=
  [UInt8.ofNat (48 + value / 10 % 10), UInt8.ofNat (48 + value % 10)]

/-- `SigningTime::to_utc_time`. -/
def SigningTime.toUtcTime (t : SigningTime) : Option Bytes :=
  if t.year < 1950 || 2050 ≤ t.year then none
  else some (pair (t.year % 100) ++ pair t.month ++ pair t.day ++ pair t.hour ++ pair t.minute ++
    pair t.second ++ [0x5A])

/-- `SignerParameters`. -/
structure SignerParameters where
  certificate : Certificate
  digestAlgorithm : DigestAlgorithm
  signatureAlgorithm : SignatureAlgorithm
  signingTime : Option SigningTime
  deriving Repr, DecidableEq

/-! ## §3. Signed attributes -/

/-- `sort_unstable` of encodings; equal ones are the same octets. -/
def sortEncodings (items : List Bytes) : List Bytes := items.insertionSort fun a b => a ≤ b

/-- `dedup` of a sorted list. -/
def dedup : List Bytes → List Bytes
  | a :: b :: rest => if a = b then dedup (b :: rest) else a :: dedup (b :: rest)
  | rest => rest

/-- `attribute`. -/
def encodeAttribute (attributeType valueDer : Bytes) : Option Bytes := do
  tlv 0x30 ((← tlv 0x06 attributeType) ++ (← tlv 0x31 valueDer))

/-- The hash algorithm of an ESSCertIDv2, left out when it is the default. -/
def certIdAlgorithm (algorithm : DigestAlgorithm) : Option Bytes :=
  if algorithm = .sha256 then some [] else algorithm.algorithmIdentifier

/-- `signing_certificate_v2`. -/
def signingCertificateV2 (E : Externals) (parameters : SignerParameters) : Option Bytes := do
  let certHash := parameters.digestAlgorithm.digest E parameters.certificate.rawDer
  let certId ← tlv 0x30 ((← certIdAlgorithm parameters.digestAlgorithm) ++ (← tlv 0x04 certHash))
  tlv 0x30 (← tlv 0x30 certId)

/-- The signing-time attribute, when there is a time that UTCTime can express. -/
def signingTimeAttribute (parameters : SignerParameters) : Option (List Bytes) :=
  match parameters.signingTime.bind SigningTime.toUtcTime with
  | none => some []
  | some time => do
    let der ← tlv 0x17 time
    let attr ← encodeAttribute Oid.signingTime der
    return [attr]

/-- `signed_attributes`: the SET the card signs. -/
def signedAttributes (E : Externals) (parameters : SignerParameters) (contentDigest : Bytes) :
    Option Bytes := do
  let contentType ← encodeAttribute Oid.contentType (← tlv 0x06 Oid.data)
  let messageDigest ← encodeAttribute Oid.messageDigest (← tlv 0x04 contentDigest)
  let time ← signingTimeAttribute parameters
  let certificate ← encodeAttribute Oid.signingCertificateV2 (← signingCertificateV2 E parameters)
  tlv 0x31 (sortEncodings ([contentType, messageDigest] ++ time ++ [certificate])).flatten

/-! ## §4. The card's signature -/

/-- `der_integer`: minimal, and with a sign octet when the top bit is set. -/
def derInteger (coordinate : Bytes) : Option Bytes :=
  let magnitude := match coordinate.dropWhile fun b => b = 0 with
    | [] => [0]
    | first :: rest => first :: rest
  tlv 0x02 (if (magnitude.headD 0) &&& 0x80 ≠ 0 then 0 :: magnitude else magnitude)

/-- Octets that start like a SEQUENCE: length octets and the length they give. -/
def sequenceLength : Bytes → Option (Nat × Nat)
  | _ :: b :: rest =>
    if b < 0x80 then some (1, b.toNat)
    else match b, rest with
      | 0x81, x :: _ => some (2, x.toNat)
      | 0x82, hi :: lo :: _ => some (3, hi.toNat * 256 + lo.toNat)
      | _, _ => none
  | _ => none

/-- The part of `ecdsa_signature_to_cms` that encodes a coordinate pair. -/
def encodePair (raw : Bytes) : Option Bytes :=
  if raw.isEmpty || raw.length % 2 ≠ 0 then none
  else do
    let r ← derInteger (raw.take (raw.length / 2))
    let s ← derInteger (raw.drop (raw.length / 2))
    tlv 0x30 (r ++ s)

/-- `ecdsa_signature_to_cms`: a DER sequence stays as it is. -/
def ecdsaSignatureToCms (raw : Bytes) : Option Bytes :=
  if 6 ≤ raw.length && raw.head? = some 0x30 then
    match sequenceLength raw with
    | none => none
    | some (lenLen, payloadLen) =>
      if raw.length = 1 + lenLen + payloadLen then some raw else encodePair raw
  else encodePair raw

/-! ## §5. The message -/

/-- `encapsulated_content`. -/
def encapsulatedContent (encapsulation : Encapsulation) (content : Bytes) : Option Bytes := do
  let oid ← tlv 0x06 Oid.data
  match encapsulation with
  | .detached => tlv 0x30 oid
  | .attached => tlv 0x30 (oid ++ (← tlv 0xA0 (← tlv 0x04 content)))

/-- `issuer_and_serial`. -/
def issuerAndSerial (certificate : Certificate) : Option Bytes := do
  tlv 0x30 (certificate.issuer ++ (← tlv 0x02 certificate.serialDer))

/-- The unsigned attributes: one instance for each token. -/
def timestampAttributes (timestamps : List Bytes) : Option Bytes :=
  if timestamps.isEmpty then some []
  else do
    let instances ← timestamps.mapM (encodeAttribute Oid.signatureTimeStampToken)
    tlv 0xA1 (dedup (sortEncodings instances)).flatten

/-- `signer_info`: the SET tag of the attributes becomes the implicit `[0]`. -/
def signerInfo (parameters : SignerParameters) (attributes signature : Bytes)
    (timestamps : List Bytes) : Option Bytes := do
  let version ← tlv 0x02 [0x01]
  let sid ← issuerAndSerial parameters.certificate
  let digest ← parameters.digestAlgorithm.algorithmIdentifier
  let tagged := attributes.set 0 0xA0
  let algorithm ← parameters.signatureAlgorithm.algorithmIdentifier
  let value ← tlv 0x04 signature
  let unsigned ← timestampAttributes timestamps
  tlv 0x30 (version ++ sid ++ digest ++ tagged ++ algorithm ++ value ++ unsigned)

/-- The revocation field: CRLs as themselves, OCSP responses as `other`. -/
def revocationField (material : ValidationMaterial) : Option Bytes :=
  if material.ocspResponses.length + material.crls.length = 0 then some []
  else do
    let oid ← tlv 0x06 Oid.ocspResponseRevocationInfo
    let others ← material.ocspResponses.mapM fun response => tlv 0xA1 (oid ++ response)
    tlv 0xA1 (dedup (sortEncodings (material.crls ++ others))).flatten

/-- `signed_data`. -/
def signedData (parameters : SignerParameters) (attributes signature : Bytes)
    (encapsulation : Encapsulation) (content : Bytes) (material : ValidationMaterial)
    (timestamps : List Bytes) : Option Bytes := do
  let version ← tlv 0x02 [if material.ocspResponses.isEmpty then 0x01 else 0x05]
  let digests ← tlv 0x31 (← parameters.digestAlgorithm.algorithmIdentifier)
  let encap ← encapsulatedContent encapsulation content
  let certificates ← tlv 0xA0
    (dedup (sortEncodings (parameters.certificate.rawDer :: material.certificates))).flatten
  let revocation ← revocationField material
  let info ← signerInfo parameters attributes signature timestamps
  let signers ← tlv 0x31 info
  let body ← tlv 0x30 (version ++ digests ++ encap ++ certificates ++ revocation ++ signers)
  tlv 0x30 ((← tlv 0x06 Oid.signedData) ++ (← tlv 0xA0 body))

/-! ## §6. The message is more than its signature -/

theorem tlv_length {tag : UInt8} {value out : Bytes} (h : tlv tag value = some out) :
    value.length < out.length := by
  unfold tlv at h
  rw [Option.map_eq_some_iff] at h
  obtain ⟨len, -, hout⟩ := h
  rw [← hout]
  simp only [List.cons_append, List.length_cons, List.length_append]
  omega

theorem signerInfo_longer {parameters : SignerParameters} {attributes signature out : Bytes}
    {timestamps : List Bytes} (h : signerInfo parameters attributes signature timestamps = some out) :
    signature.length < out.length := by
  simp only [signerInfo, Option.bind_eq_bind, Option.bind_eq_some_iff] at h
  obtain ⟨version, -, sid, -, digest, -, algorithm, -, value, hvalue, unsigned, -, hout⟩ := h
  have h1 := tlv_length hvalue
  have h2 := tlv_length hout
  simp only [List.length_append] at h2
  omega

/-- **A message is longer than the signature in it.** -/
theorem signedData_longer {parameters : SignerParameters} {attributes signature content out : Bytes}
    {encapsulation : Encapsulation} {material : ValidationMaterial} {timestamps : List Bytes}
    (h : signedData parameters attributes signature encapsulation content material timestamps =
      some out) : signature.length < out.length := by
  simp only [signedData, Option.bind_eq_bind, Option.bind_eq_some_iff] at h
  obtain ⟨version, -, algorithm, -, digests, -, encap, -, certificates, -, revocation, -, info,
    hinfo, signers, hsigners, body, hbody, oid, -, wrapped, hwrapped, hout⟩ := h
  have h1 := signerInfo_longer hinfo
  have h2 := tlv_length hsigners
  have h3 := tlv_length hbody
  have h4 := tlv_length hwrapped
  have h5 := tlv_length hout
  simp only [List.length_append] at h3 h5
  omega

end Cades

end RefineId
