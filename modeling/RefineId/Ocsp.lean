/-
  RefineId.Ocsp — OCSP responses.
  ════════════════════════════════════════════════════════════════════════════

  `crates/refineid-lib-core/src/ocsp.rs`, the response side: the walk from the outer
  SEQUENCE down to the single responses, and `VerifiedOcspResponse`, through which a
  status is read only after a signature has verified.

  Main results:
    • `VerifiedOcspResponse` carries the proof that some key verified the response.
    • `verify_isOk_iff`   : when that value can be built.
    • `matchesRequest_iff`: a CertID matches exactly when all four parts agree.
-/
import RefineId.X509

namespace RefineId

namespace Ocsp

variable (E : Externals)

/-! ## §1. The parsed response -/

/-- `CrlReason`. -/
inductive CrlReason where
  | unspecified
  | keyCompromise
  | caCompromise
  | affiliationChanged
  | superseded
  | cessationOfOperation
  | certificateHold
  | removeFromCrl
  | privilegeWithdrawn
  | aaCompromise
  deriving Repr, DecidableEq

/-- `CrlReason::from_code`. -/
def CrlReason.fromCode (code : UInt8) : Option CrlReason :=
  match code.toNat with
  | 0 => some .unspecified
  | 1 => some .keyCompromise
  | 2 => some .caCompromise
  | 3 => some .affiliationChanged
  | 4 => some .superseded
  | 5 => some .cessationOfOperation
  | 6 => some .certificateHold
  | 8 => some .removeFromCrl
  | 9 => some .privilegeWithdrawn
  | 10 => some .aaCompromise
  | _ => none

/-- `CertStatus`. -/
inductive CertStatus where
  | good
  | revoked (revokedAt : DateTime) (reason : Option CrlReason)
  | unknown
  deriving Repr, DecidableEq

/-- `CertId`. -/
structure CertId where
  hashAlgorithmOid : Bytes
  issuerNameHash : Bytes
  issuerKeyHash : Bytes
  serial : Bytes
  deriving Repr, DecidableEq

/-- `CertId::matches_request`. -/
def CertId.matchesRequest (id : CertId) (issuerNameHash issuerKeyHash serial : Bytes) : Bool :=
  id.hashAlgorithmOid == Oid.sha1 && id.issuerNameHash == issuerNameHash
    && id.issuerKeyHash == issuerKeyHash && id.serial == serial

/-- `SingleResponse`. -/
structure SingleResponse where
  certId : CertId
  status : CertStatus
  thisUpdate : DateTime
  nextUpdate : Option DateTime
  deriving Repr, DecidableEq

/-- `BasicOcspResponse`. -/
structure BasicOcspResponse where
  producedAt : DateTime
  responses : List SingleResponse
  tbsResponseDataDer : Bytes
  signatureAlgOid : Bytes
  signatureBits : Bytes
  embeddedCertDers : List Bytes
  nonce : Option Bytes
  deriving Repr, DecidableEq

/-- `OcspResponseStatus`. -/
inductive OcspResponseStatus where
  | successful
  | malformedRequest
  | internalError
  | tryLater
  | sigRequired
  | unauthorized
  | other (b : UInt8)
  deriving Repr, DecidableEq

/-- `OcspResponseStatus::from_byte`. -/
def OcspResponseStatus.fromByte (b : UInt8) : OcspResponseStatus :=
  match b.toNat with
  | 0 => .successful
  | 1 => .malformedRequest
  | 2 => .internalError
  | 3 => .tryLater
  | 5 => .sigRequired
  | 6 => .unauthorized
  | _ => .other b

/-- `Debug` of `OcspResponseStatus`. -/
def OcspResponseStatus.debug : OcspResponseStatus → String
  | .successful => "Successful"
  | .malformedRequest => "MalformedRequest"
  | .internalError => "InternalError"
  | .tryLater => "TryLater"
  | .sigRequired => "SigRequired"
  | .unauthorized => "Unauthorized"
  | .other b => "Other(" ++ toString b.toNat ++ ")"

/-- `OcspResponse`. -/
structure OcspResponse where
  status : OcspResponseStatus
  basic : Option BasicOcspResponse
  deriving Repr, DecidableEq

/-! ## §2. Parsing helpers -/

/-- `OcspHelpers::value_of`. -/
def valueOf (der : Bytes) (what : String) : Except X509Error Bytes :=
  (readAny E what der).map Prod.snd

/-- `OcspHelpers::sequence_reader`. -/
def sequenceReader (der : Bytes) (what : String) : Except X509Error Bytes := do
  require what (der.head? = some 0x30)
  openReader E what (← valueOf E der what)

/-- `OcspHelpers::octet_string`. -/
def octetString (reader : Bytes) (what : String) : Except X509Error (Bytes × Bytes) := do
  let (tlv, reader) ← readTlv E what reader
  require what (tlv.head? = some 0x04)
  return (← valueOf E tlv what, reader)

/-- `OcspHelpers::generalized_time`. -/
def generalizedTime (der : Bytes) : Except X509Error DateTime :=
  match E.generalizedTime der with
  | some t => .ok t
  | none => .error .invalidTime

/-- `OcspHelpers::parse_cert_id`. -/
def parseCertId (der : Bytes) : Except X509Error CertId := do
  let r ← sequenceReader E der "OCSP CertID"
  let (algorithm, r) ← readTlv E "CertID hashAlgorithm" r
  let algorithmReader ← sequenceReader E algorithm "CertID hashAlgorithm"
  let (oidTlv, _) ← readTlv E "CertID hashAlgorithm OID" algorithmReader
  require "CertID hashAlgorithm OID" (oidTlv.head? = some 0x06)
  let hashAlgorithmOid ← valueOf E oidTlv "CertID hashAlgorithm OID"
  let (issuerNameHash, r) ← octetString E r "CertID issuerNameHash"
  let (issuerKeyHash, r) ← octetString E r "CertID issuerKeyHash"
  let (serialTlv, _) ← readTlv E "CertID serialNumber" r
  require "CertID serialNumber" (serialTlv.head? = some 0x02)
  let serial ← valueOf E serialTlv "CertID serialNumber"
  return { hashAlgorithmOid, issuerNameHash, issuerKeyHash, serial }

/-- The tail of RevokedInfo: the last `[0]` gives the reason. -/
def revokedReason : List (Option Bytes) → Option CrlReason →
    Except X509Error (Option CrlReason)
  | [], reason => .ok reason
  | none :: _, _ => .error (.unexpectedStructure "OCSP RevokedInfo tail")
  | some field :: rest, reason =>
    if field.head? = some 0xA0 then do
      let enumerated ← valueOf E field "revocationReason"
      let code ← valueOf E enumerated "CRLReason"
      revokedReason rest (code.head?.bind CrlReason.fromCode)
    else revokedReason rest reason

/-- `OcspHelpers::parse_cert_status`. -/
def parseCertStatus (der : Bytes) : Except X509Error CertStatus :=
  if der.head? = some 0x80 then .ok .good
  else if der.head? = some 0xA1 then do
    let r ← openReader E "OCSP RevokedInfo body" (← valueOf E der "OCSP RevokedInfo")
    let (timeTlv, r) ← readTlv E "revocationTime" r
    let revokedAt ← generalizedTime E timeTlv
    return .revoked revokedAt (← revokedReason E (elements E r) none)
  else .ok .unknown

/-- The tail of a SingleResponse: the last `[0]` gives nextUpdate. -/
def singleResponseTail : List (Option Bytes) → Option DateTime →
    Except X509Error (Option DateTime)
  | [], nextUpdate => .ok nextUpdate
  | none :: _, _ => .error (.unexpectedStructure "OCSP SingleResponse tail")
  | some field :: rest, nextUpdate =>
    if field.head? = some 0xA0 then do
      let time ← generalizedTime E (← valueOf E field "OCSP nextUpdate")
      singleResponseTail rest (some time)
    else singleResponseTail rest nextUpdate

/-- `OcspHelpers::parse_single_response`. -/
def parseSingleResponse (der : Bytes) : Except X509Error SingleResponse := do
  let r ← sequenceReader E der "OCSP SingleResponse"
  let (idTlv, r) ← readTlv E "OCSP certID" r
  let certId ← parseCertId E idTlv
  let (statusTlv, r) ← readTlv E "OCSP certStatus" r
  let status ← parseCertStatus E statusTlv
  let (timeTlv, r) ← readTlv E "OCSP thisUpdate" r
  let thisUpdate ← generalizedTime E timeTlv
  let nextUpdate ← singleResponseTail E (elements E r) none
  return { certId, status, thisUpdate, nextUpdate }

/-- Past the optional critical BOOLEAN to the extnValue.  `ok none`: no OCTET STRING. -/
def nonceValue : List (Option Bytes) → Except X509Error (Option Bytes)
  | [] => .ok none
  | none :: _ => .error (.unexpectedStructure "OCSP extnValue")
  | some field :: rest =>
    if field.head? = some 0x04 then do
      let inner ← valueOf E field "OCSP extnValue"
      -- a responder that omits the inner wrapper sent the bytes bare
      if inner.head? = some 0x04 then (valueOf E inner "OCSP nonce").map some
      else return some inner
    else nonceValue rest

/-- The loop of `nonce_from_extensions`. -/
def nonceLoop : List (Option Bytes) → Except X509Error (Option Bytes)
  | [] => .ok none
  | none :: _ => .error (.unexpectedStructure "OCSP Extension")
  | some extension :: rest => do
    let fields ← sequenceReader E extension "OCSP Extension body"
    let (oidTlv, fields) ← readTlv E "OCSP Extension OID" fields
    if (← valueOf E oidTlv "OCSP Extension OID") ≠ Oid.ocspNonce then nonceLoop rest
    else match ← nonceValue E (elements E fields) with
      | some nonce => return some nonce
      | none => nonceLoop rest

/-- `OcspHelpers::nonce_from_extensions`. -/
def nonceFromExtensions (extensions : Bytes) : Except X509Error (Option Bytes) := do
  nonceLoop E (elements E (← sequenceReader E extensions "OCSP Extensions"))

/-- The entries of one `responses` list. -/
def singleResponses : List (Option Bytes) → Except X509Error (List SingleResponse)
  | [] => .ok []
  | none :: _ => .error (.unexpectedStructure "OCSP SingleResponse")
  | some entry :: rest => do
    let single ← parseSingleResponse E entry
    return single :: (← singleResponses rest)

/-- What `parse_response_data` has gathered so far. -/
structure ResponseDataParts where
  producedAt : Option DateTime := none
  responses : List SingleResponse := []
  nonce : Option Bytes := none

/-- The loop of `parse_response_data`. -/
def responseDataLoop : List (Option Bytes) → ResponseDataParts →
    Except X509Error ResponseDataParts
  | [], parts => .ok parts
  | none :: _, _ => .error (.unexpectedStructure "OCSP ResponseData field")
  | some field :: rest, parts =>
    if field.head? = some 0x18 then do
      responseDataLoop rest { parts with producedAt := some (← generalizedTime E field) }
    else if field.head? = some 0x30 then do
      let list ← sequenceReader E field "OCSP responses"
      let entries ← singleResponses E (elements E list)
      responseDataLoop rest { parts with responses := parts.responses ++ entries }
    -- before producedAt a [1] is the responder's name
    else if field.head? = some 0xA1 ∧ parts.producedAt.isSome then do
      let nonce ← nonceFromExtensions E (← valueOf E field "OCSP extensions")
      responseDataLoop rest { parts with nonce }
    else responseDataLoop rest parts

/-- `OcspHelpers::parse_response_data`. -/
def parseResponseData (der : Bytes) :
    Except X509Error (DateTime × List SingleResponse × Option Bytes) := do
  let r ← sequenceReader E der "OCSP tbsResponseData"
  let parts ← responseDataLoop E (elements E r) {}
  match parts.producedAt with
  | some producedAt => return (producedAt, parts.responses, parts.nonce)
  | none => .error (.unexpectedStructure "OCSP producedAt missing")

/-! ## §3. Parsing a response -/

/-- The certificates of the `[0]` field. -/
def embeddedCerts : List (Option Bytes) → Except X509Error (List Bytes)
  | [] => .ok []
  | none :: _ => .error (.unexpectedStructure "OCSP embedded cert")
  | some der :: rest => return der :: (← embeddedCerts rest)

/-- `BasicOcspResponse::parse`. -/
def BasicOcspResponse.parse (der : Bytes) : Except X509Error BasicOcspResponse := do
  let (tag, body) ← readAny E "BasicOCSPResponse not a TLV" der
  require "BasicOCSPResponse not SEQUENCE" (tag = 0x30)
  let r ← openReader E "BasicOCSPResponse body" body
  let (tbsResponseDataDer, r) ← readTlv E "tbsResponseData" r
  let (sigAlgTlv, r) ← readTlv E "OCSP signatureAlgorithm" r
  let (_, sigAlg) ← readAny E "OCSP signatureAlgorithm" sigAlgTlv
  let algReader ← openReader E "OCSP signatureAlgorithm body" sigAlg
  let (oidTlv, _) ← readTlv E "OCSP signatureAlgorithm OID" algReader
  let (oidTag, signatureAlgOid) ← readAny E "OCSP signatureAlgorithm OID" oidTlv
  require "OCSP signatureAlgorithm OID" (oidTag = 0x06)
  let (sigTlv, r) ← readTlv E "OCSP signature" r
  let (sigTag, sig) ← readAny E "OCSP signature" sigTlv
  require "OCSP signature not BIT STRING" (sigTag = 0x03)
  require "OCSP signature BIT STRING empty" (!sig.isEmpty)
  let embeddedCertDers ← if r.isEmpty then pure [] else do
    let (certsTlv, _) ← readTlv E "OCSP certs field" r
    let (_, certs) ← readAny E "OCSP certs field" certsTlv
    if certsTlv.head? = some 0xA0 then do
      let (_, certsSeq) ← readAny E "OCSP certs not SEQUENCE" certs
      let certsReader ← openReader E "OCSP certs body" certsSeq
      embeddedCerts (elements E certsReader)
    else pure []
  let (producedAt, responses, nonce) ← parseResponseData E tbsResponseDataDer
  return { producedAt, responses, tbsResponseDataDer, signatureAlgOid,
           signatureBits := sig.tail, embeddedCertDers, nonce }

/-- `OcspResponse::parse`; `OwnedOcspResponse::from_der` followed by `view` is this. -/
def OcspResponse.parse (der : Bytes) : Except X509Error OcspResponse := do
  let (tag, body) ← readAny E "OCSP not a TLV" der
  require "OCSP not SEQUENCE" (tag = 0x30)
  let r ← openReader E "OCSP body" body
  let (statusTlv, r) ← readTlv E "missing responseStatus" r
  let (statusTag, statusValue) ← readAny E "missing responseStatus" statusTlv
  require "malformed responseStatus" (statusTag = 0x0A)
  let status ← match statusValue with
    | [b] => .ok (OcspResponseStatus.fromByte b)
    | _ => .error (.unexpectedStructure "malformed responseStatus")
  if status = .successful ∧ !r.isEmpty then do
    let (rbTlv, _) ← readTlv E "OCSP responseBytes" r
    let (_, rb) ← readAny E "OCSP responseBytes" rbTlv
    if rbTlv.head? = some 0xA0 then do
      let (_, rbSeq) ← readAny E "OCSP responseBytes not SEQUENCE" rb
      let rbReader ← openReader E "OCSP responseBytes body" rbSeq
      let (typeTlv, rbReader) ← readTlv E "missing responseType" rbReader
      let (typeTag, rtype) ← readAny E "missing responseType" typeTlv
      if typeTag = 0x06 ∧ rtype = Oid.basicOcspResponse then do
        let (octetTlv, _) ← readTlv E "missing response octet" rbReader
        let (octetTag, octet) ← readAny E "missing response octet" octetTlv
        require "response field not OCTET STRING" (octetTag = 0x04)
        return ⟨status, some (← BasicOcspResponse.parse E octet)⟩
      else return ⟨status, none⟩
    else return ⟨status, none⟩
  else return ⟨status, none⟩

/-! ## §4. Verified responses -/

/-- `BasicOcspResponse::verify_signature`. -/
def BasicOcspResponse.verifySignature (basic : BasicOcspResponse) (signerSpkiDer : Bytes) :
    Except VerifyError Unit :=
  verifyTbsSignature E basic.tbsResponseDataDer basic.signatureAlgOid basic.signatureBits
    signerSpkiDer

/-- `VerifiedOcspResponse`: a response together with the key that verified it, so that a
    status can only be read after a signature check. -/
structure VerifiedOcspResponse where
  basic : BasicOcspResponse
  signerSpki : Bytes
  verified : basic.verifySignature E signerSpki = .ok ()

/-- `VerifiedOcspResponse::verify`. -/
def VerifiedOcspResponse.verify (basic : BasicOcspResponse) (signerSpki : SpkiDer) :
    Except VerifyError (VerifiedOcspResponse E) :=
  match h : basic.verifySignature E signerSpki.der with
  | .ok () => .ok ⟨basic, signerSpki.der, h⟩
  | .error e => .error e

/-- `VerifiedOcspResponse::single_responses`. -/
def VerifiedOcspResponse.singleResponses (v : VerifiedOcspResponse E) : List SingleResponse :=
  v.basic.responses

variable {E}

theorem verify_eq_ok {basic : BasicOcspResponse} {signerSpki : SpkiDer}
    {v : VerifiedOcspResponse E} (h : VerifiedOcspResponse.verify E basic signerSpki = .ok v) :
    v.basic = basic ∧ v.signerSpki = signerSpki.der := by
  unfold VerifiedOcspResponse.verify at h
  split at h
  · injection h with h
    subst h
    exact ⟨rfl, rfl⟩
  · exact absurd h (by simp)

/-- A verified value exists exactly when the key verifies the response. -/
theorem verify_isOk_iff {basic : BasicOcspResponse} {signerSpki : SpkiDer} :
    (∃ v, VerifiedOcspResponse.verify E basic signerSpki = .ok v) ↔
      basic.verifySignature E signerSpki.der = .ok () := by
  constructor
  · intro hx
    obtain ⟨v, h⟩ := hx
    obtain ⟨rfl, hs⟩ := verify_eq_ok h
    rw [← hs]
    exact v.verified
  · intro h
    refine ⟨⟨basic, signerSpki.der, h⟩, ?_⟩
    unfold VerifiedOcspResponse.verify
    split
    · rfl
    next e he => exact absurd (h.symm.trans he) (by simp)

@[simp] theorem matchesRequest_iff {id : CertId} {nameHash keyHash serial : Bytes} :
    id.matchesRequest nameHash keyHash serial = true ↔
      id = ⟨Oid.sha1, nameHash, keyHash, serial⟩ := by
  cases id
  simp [CertId.matchesRequest, and_assoc]

end Ocsp

end RefineId
