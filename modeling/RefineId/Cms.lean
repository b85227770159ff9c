/-
  RefineId.Cms — CMS `SignedData`.
  ════════════════════════════════════════════════════════════════════════════

  `crates/refineid-doc-sign/src/cms.rs`: the parser of signed messages with exactly one
  signer, and the check of that signer's signature.  Time-stamp tokens and the detached
  signatures of containers both go through it.

  A parsed message holds slices of its input: what the signature covers, the digest that
  binds the content and the attributes a profile looks at are all taken from one field,
  `signedAttrs`.  `signedAttrs_bound` says so; without it each check would speak about
  bytes of its own.

  Main results:
    • `signedAttrs_bound`      : signature, content type, digest and attributes come from
                                 the same octets.
    • `parseAttributes_digest` : the digest is the value of the one messageDigest attribute.
    • `verify_ok`              : a verified message binds its content through its attributes.
-/
import RefineId.X509
import RefineId.Lib.Outcome

namespace RefineId

namespace Cms

open Ber Lib

/-! ## §1. What the signature crates provide -/

/-- The RSA and ECDSA verifiers of `refineid-doc-sign`, as given functions. -/
structure SignatureChecks where
  /-- `extract_rsa_public_key`, then `RsaModulus` and `RsaPublicExponent`. -/
  rsaKey : Bytes → Option RsaPublicKey
  /-- `verify_pkcs1v15_sha256`, `_sha384` and `_sha512`: key, payload, signature. -/
  rsaVerify : HashAlg → RsaPublicKey → Bytes → Bytes → Except String Unit
  /-- `ecdsa::extract_ec_pubkey`. -/
  ecKey : Bytes → Option EcPublicKey
  /-- `ecdsa::verify_prehashed`: key, signature, digest. -/
  ecVerify : EcPublicKey → Bytes → Bytes → Except String Unit

/-! ## §2. Errors and the parsed message -/

/-- `CmsError`; the errors of the verifiers by their text. -/
inductive CmsError where
  | ber (e : BerError)
  | unexpectedStructure (what : String)
  | unsupportedDigestAlgorithm
  | unsupportedSignatureAlgorithm
  | badSignerKey
  | signerHashMismatch
  | rsa (e : String)
  | ecdsa (e : String)
  deriving Repr, DecidableEq

/-- `Display` of `CmsError`. -/
def CmsError.display : CmsError → String
  | .ber e => "CMS BER: " ++ showBerError e
  | .unexpectedStructure s => "CMS: " ++ s
  | .unsupportedDigestAlgorithm => "CMS: unsupported digest algorithm"
  | .unsupportedSignatureAlgorithm => "CMS: unsupported signature algorithm"
  | .badSignerKey => "CMS: signer key did not parse as RSA"
  | .signerHashMismatch => "CMS: messageDigest attr != hash(eContent)"
  | .rsa e => "CMS: RSA verify: " ++ e
  | .ecdsa e => "CMS: ECDSA verify: " ++ e

/-- `HashAlgorithm::from_oid`. -/
def hashFromOid (oid : Bytes) : Option HashAlg :=
  if oid = Oid.sha256 then some .sha256
  else if oid = Oid.sha384 then some .sha384
  else if oid = Oid.sha512 then some .sha512
  else none

/-- `SignerIdentifier`. -/
inductive SignerIdentifier where
  | issuerAndSerialNumber (issuerDer serialNumber : Bytes)
  | subjectKeyIdentifier (keyId : Bytes)
  deriving Repr, DecidableEq

/-- `SignedAttribute`. -/
structure SignedAttribute where
  oid : Bytes
  valuesDer : Bytes
  deriving Repr, DecidableEq

/-- `SignerInfo`. -/
structure SignerInfo where
  signerIdentifier : SignerIdentifier
  digestAlgorithmOid : Bytes
  signatureAlgorithmOid : Bytes
  signature : Bytes
  /-- The re-tagged `SET OF Attribute`; `none` when the content itself is signed. -/
  signedDataToVerify : Option Bytes
  signedAttributes : List SignedAttribute
  messageDigest : Option Bytes
  deriving Repr, DecidableEq

/-- `SignedData`. -/
structure SignedData where
  econtentTypeOid : Bytes
  /-- Empty in the detached form until the caller supplies the content. -/
  econtentDer : Bytes
  certificatesDer : List Bytes
  signer : SignerInfo
  deriving Repr, DecidableEq

/-! ## §3. Reading fields -/

/-- The fields an iterator has still to give. -/
abbrev Fields := List (Except BerError BerTlvAny)

def shape {α : Type} (what : String) : Except CmsError α := .error (.unexpectedStructure what)

/-- `it.next().ok_or(UnexpectedStructure(missing))??`. -/
def nextAny (missing : String) : Fields → Except CmsError (BerTlvAny × Fields)
  | [] => shape missing
  | .error e :: _ => .error (.ber e)
  | .ok t :: rest => .ok (t, rest)

/-- The same, then `.expect::<T>().or(Err(UnexpectedStructure(wrong)))?`. -/
def nextTagged (tag : Nat) (missing wrong : String) (fields : Fields) :
    Except CmsError (BerTlvAny × Fields) := do
  let (t, rest) ← nextAny missing fields
  ensure (t.tag = tag) (.unexpectedStructure wrong)
  return (t, rest)

/-- `parse_exact`. -/
def parseExact (tag : Nat) (input : Bytes) (trailing : String) : Except CmsError BerTlvAny := do
  let t ← (parseExpect tag input).mapError .ber
  ensure (t.size = input.length) (.unexpectedStructure trailing)
  return t

/-- `Oid::new`, with the error of its call. -/
def checkOid (oid : Bytes) (what : String) : Except CmsError Bytes := do
  ensure (Oid.wellFormed oid) (.unexpectedStructure what)
  return oid

/-- `for value in it { value?; … }`. -/
def drain (fields : Fields) : Except CmsError (List BerTlvAny) := collect .ber fields

/-- `validate_nonempty_tlv_stream`. -/
def validateNonemptyTlvStream (values : Bytes) (empty : String) : Except CmsError Unit := do
  let all ← drain (children values)
  ensure (!all.isEmpty) (.unexpectedStructure empty)

/-- `parse_algorithm_identifier`: the OID, and at most one more field. -/
def parseAlgorithmIdentifier (body : Bytes) : Except CmsError Bytes := do
  let (oid, fields) ← nextTagged 0x06 "AlgorithmIdentifier missing OID"
    "AlgorithmIdentifier algorithm not OID" (children body)
  let oid ← checkOid oid.value "AlgorithmIdentifier OID malformed"
  match fields with
  | [] => return oid
  | .error e :: _ => .error (.ber e)
  | .ok _ :: [] => return oid
  | .ok _ :: .error e :: _ => .error (.ber e)
  | .ok _ :: .ok _ :: _ => shape "AlgorithmIdentifier has trailing fields"

/-- `parse_digest_algorithms`. -/
def parseDigestAlgorithms : Fields → Except CmsError (List Bytes)
  | [] => .ok []
  | .error e :: _ => .error (.ber e)
  | .ok t :: rest => do
    ensure (t.tag = 0x30) (.unexpectedStructure "digestAlgorithms entry not SEQUENCE")
    let oid ← parseAlgorithmIdentifier t.value
    let oids ← parseDigestAlgorithms rest
    return oid :: oids

/-- One turn of the loop in `parse_certificates`. -/
def nextCertificate (tail : Bytes) : Except CmsError Bytes × Option Bytes :=
  match BerTlvAny.parse tail with
  | .error e => (.error (.ber e), none)
  | .ok t =>
    if t.tag ≠ 0x30 then (shape "unsupported CMS CertificateChoices entry", none)
    else (.ok (tail.take t.size), some (tail.drop t.size))

/-- `parse_certificates`. -/
def parseCertificates (certificates : Bytes) : Except CmsError (List Bytes) := do
  ensure (!certificates.isEmpty) (.unexpectedStructure "empty certificates field")
  collect id (unfold nextCertificate certificates)

/-! ## §4. Attributes -/

/-- `ParsedSignedAttributes`. -/
structure ParsedAttributes where
  attributes : List SignedAttribute
  contentType : Option Bytes
  messageDigest : Option Bytes
  deriving Repr, DecidableEq

/-- One Attribute: its type and the contents of its value set. -/
def parseAttribute (attr : BerTlvAny) : Except CmsError SignedAttribute := do
  ensure (attr.tag = 0x30) (.unexpectedStructure "attribute not SEQUENCE")
  let (oid, fields) ← nextTagged 0x06 "attribute missing OID" "attribute type not OID"
    (children attr.value)
  let oid ← checkOid oid.value "attribute OID malformed"
  let (values, fields) ← nextTagged 0x31 "attribute missing values" "attribute values not SET"
    fields
  ensure fields.isEmpty (.unexpectedStructure "attribute has trailing fields")
  validateNonemptyTlvStream values.value "attribute value set is empty"
  return ⟨oid, values.value⟩

/-- What one attribute adds: the two mandatory ones only once, and with one value each. -/
def addAttribute (requireMandatory : Bool) (acc : ParsedAttributes) (a : SignedAttribute) :
    Except CmsError ParsedAttributes :=
  if requireMandatory && a.oid = Oid.contentType then do
    ensure acc.contentType.isNone
      (.unexpectedStructure "duplicate signed contentType attribute")
    let value ← parseExact 0x06 a.valuesDer "contentType attribute has multiple values"
    let oid ← checkOid value.value "contentType attribute OID malformed"
    return { acc with attributes := acc.attributes ++ [a], contentType := some oid }
  else if requireMandatory && a.oid = Oid.messageDigest then do
    ensure acc.messageDigest.isNone
      (.unexpectedStructure "duplicate signed messageDigest attribute")
    let value ← parseExact 0x04 a.valuesDer "messageDigest attribute has multiple values"
    return { acc with attributes := acc.attributes ++ [a], messageDigest := some value.value }
  else return { acc with attributes := acc.attributes ++ [a] }

/-- The loop of `parse_attributes`. -/
def attributesLoop (requireMandatory : Bool) (acc : ParsedAttributes) :
    Fields → Except CmsError ParsedAttributes
  | [] => .ok acc
  | .error e :: _ => .error (.ber e)
  | .ok attr :: rest => do
    let a ← parseAttribute attr
    let acc ← addAttribute requireMandatory acc a
    attributesLoop requireMandatory acc rest

/-- `parse_attributes`. -/
def parseAttributes (attrsValue : Bytes) (requireMandatory : Bool) :
    Except CmsError ParsedAttributes := do
  let parsed ← attributesLoop requireMandatory ⟨[], none, none⟩ (children attrsValue)
  ensure (!requireMandatory || parsed.contentType.isSome)
    (.unexpectedStructure "signedAttrs missing contentType")
  ensure (!requireMandatory || parsed.messageDigest.isSome)
    (.unexpectedStructure "signedAttrs missing messageDigest")
  return parsed

/-! ## §5. The signer -/

/-- `parse_signer_identifier`. -/
def parseSignerIdentifier (sid : BerTlvAny) (version : Bytes) :
    Except CmsError SignerIdentifier :=
  if sid.tag = 0x30 then do
    ensure (version = [1])
      (.unexpectedStructure "issuerAndSerialNumber signerInfo version is not 1")
    let (issuer, fields) ← nextTagged 0x30 "sid missing issuer" "sid issuer is not Name SEQUENCE"
      (children sid.value)
    let (serial, fields) ← nextTagged 0x02 "sid missing serialNumber"
      "sid serialNumber not INTEGER" fields
    ensure (!serial.value.isEmpty && fields.isEmpty)
      (.unexpectedStructure "issuerAndSerialNumber malformed")
    return .issuerAndSerialNumber (sid.value.take issuer.size) serial.value
  else if sid.tag = 0x80 then do
    ensure (version = [3])
      (.unexpectedStructure "subjectKeyIdentifier signerInfo version is not 3")
    ensure (!sid.value.isEmpty) (.unexpectedStructure "subjectKeyIdentifier is empty")
    return .subjectKeyIdentifier sid.value
  else shape "unsupported SignerIdentifier choice"

/-- `crate::ber::tlv(0x31, attrs)`: the length comes from a parsed element, so it fits. -/
def rebuiltSet (attrsValue : Bytes) : Bytes := (tlv 0x31 attrsValue).getD []

/-- The signedAttrs part of `parse_signer_info`: what is signed, the attributes and the
    digest. -/
def parseSignedAttrs (expectedContentType : Bytes) :
    Option Bytes → Except CmsError (Option Bytes × List SignedAttribute × Option Bytes)
  | none => .ok (none, [], none)
  | some attrsValue => do
    let parsed ← parseAttributes attrsValue true
    ensure (parsed.contentType = some expectedContentType)
      (.unexpectedStructure "signed contentType does not match eContentType")
    return (some (rebuiltSet attrsValue), parsed.attributes, parsed.messageDigest)

/-- The field after the digest algorithm: signedAttrs, or already the signature algorithm. -/
def splitSignedAttrs (fields : Fields) :
    Except CmsError (Option Bytes × BerTlvAny × Fields) := do
  let (afterDigest, fields) ← nextAny "signerInfo missing signature material" fields
  if afterDigest.tag = 0xA0 then
    let (algorithm, fields) ← nextAny "signerInfo missing signatureAlgorithm" fields
    return (some afterDigest.value, algorithm, fields)
  else return (none, afterDigest, fields)

/-- The tail of a signerInfo: at most the unsigned attributes. -/
def parseUnsignedAttrs : Fields → Except CmsError Unit
  | [] => .ok ()
  | .error e :: _ => .error (.ber e)
  | .ok t :: rest => do
    ensure (t.tag = 0xA1)
      (.unexpectedStructure "signerInfo trailing field is not unsignedAttrs")
    let _ ← parseAttributes t.value false
    ensure rest.isEmpty (.unexpectedStructure "signerInfo has trailing fields")

/-- `parse_signer_info`. -/
def parseSignerInfo (body expectedContentType : Bytes) : Except CmsError SignerInfo := do
  let (version, fields) ← nextTagged 0x02 "signerInfo missing version"
    "signerInfo version not INTEGER" (children body)
  let (sid, fields) ← nextAny "signerInfo missing sid" fields
  let signerIdentifier ← parseSignerIdentifier sid version.value
  let (digestAlg, fields) ← nextTagged 0x30 "signerInfo missing digestAlgorithm"
    "digestAlgorithm not SEQUENCE" fields
  let digestAlgorithmOid ← parseAlgorithmIdentifier digestAlg.value
  let (signedAttrs, sigAlg, fields) ← splitSignedAttrs fields
  ensure (sigAlg.tag = 0x30) (.unexpectedStructure "signatureAlgorithm not SEQUENCE")
  let signatureAlgorithmOid ← parseAlgorithmIdentifier sigAlg.value
  let (signature, fields) ← nextTagged 0x04 "signerInfo missing signature material"
    "signature not OCTET STRING" fields
  parseUnsignedAttrs fields
  let (signedDataToVerify, signedAttributes, messageDigest) ←
    parseSignedAttrs expectedContentType signedAttrs
  return { signerIdentifier, digestAlgorithmOid, signatureAlgorithmOid
           signature := signature.value
           signedDataToVerify, signedAttributes, messageDigest }

/-! ## §6. The message -/

/-- The eContent: absent, or one OCTET STRING under `[0]`. -/
def parseEncapContent : Fields → Except CmsError Bytes
  | [] => .ok []
  | .error e :: _ => .error (.ber e)
  | .ok field :: rest => do
    ensure (field.tag = 0xA0) (.unexpectedStructure "eContent is not [0] EXPLICIT")
    ensure rest.isEmpty (.unexpectedStructure "encapContentInfo has trailing fields")
    let content ← parseExact 0x04 field.value "trailing bytes in eContent"
    return content.value

/-- The optional certificates. -/
def takeCertificates : List BerTlvAny → Except CmsError (List Bytes × List BerTlvAny)
  | [] => .ok ([], [])
  | field :: rest =>
    if field.tag = 0xA0 then do
      let certificates ← parseCertificates field.value
      return (certificates, rest)
    else .ok ([], field :: rest)

/-- The optional revocation lists, which are not kept. -/
def takeCrls : List BerTlvAny → Except CmsError (List BerTlvAny)
  | [] => .ok []
  | field :: rest =>
    if field.tag = 0xA1 then do
      validateNonemptyTlvStream field.value "empty crls field"
      return rest
    else .ok (field :: rest)

/-- The signerInfos: one field, and in it one signerInfo. -/
def takeSigner (remaining : List BerTlvAny) : Except CmsError BerTlvAny := do
  match remaining with
  | [] => shape "SignedData missing signerInfos"
  | infos :: rest =>
    ensure (infos.tag = 0x31) (.unexpectedStructure "SignedData signerInfos not SET")
    ensure rest.isEmpty
      (.unexpectedStructure "SignedData has trailing or out-of-order fields")
    let (signer, more) ← nextTagged 0x30 "signerInfos is empty" "signerInfo not SEQUENCE"
      (children infos.value)
    match more with
    | [] => return signer
    | .ok _ :: _ => shape "SignedData must contain exactly one signerInfo"
    | .error e :: _ => .error (.ber e)

/-- `parse_signed_data_body`. -/
def parseSignedDataBody (body : Bytes) : Except CmsError SignedData := do
  let (version, fields) ← nextTagged 0x02 "SignedData missing version"
    "SignedData version not INTEGER" (children body)
  ensure (!version.value.isEmpty) (.unexpectedStructure "SignedData version is empty")
  let (digestSet, fields) ← nextTagged 0x31 "SignedData missing digestAlgorithms"
    "SignedData digestAlgorithms not SET" fields
  let digestOids ← parseDigestAlgorithms (children digestSet.value)
  ensure (!digestOids.isEmpty) (.unexpectedStructure "digestAlgorithms is empty")
  let (encap, fields) ← nextTagged 0x30 "SignedData missing encapContentInfo"
    "encapContentInfo not SEQUENCE" fields
  let (econtentType, encapFields) ← nextTagged 0x06 "encap missing eContentType"
    "eContentType not OID" (children encap.value)
  let econtentTypeOid ← checkOid econtentType.value "eContentType OID malformed"
  let econtentDer ← parseEncapContent encapFields
  let remaining ← drain fields
  let (certificatesDer, remaining) ← takeCertificates remaining
  let remaining ← takeCrls remaining
  let signerTlv ← takeSigner remaining
  let signer ← parseSignerInfo signerTlv.value econtentTypeOid
  ensure (digestOids.contains signer.digestAlgorithmOid)
    (.unexpectedStructure "signer digestAlgorithm absent from SignedData set")
  return { econtentTypeOid, econtentDer, certificatesDer, signer }

/-- `decode_content_info`. -/
def decodeContentInfo (input : Bytes) : Except CmsError Bytes := do
  let outer ← parseExact 0x30 input "trailing bytes after ContentInfo"
  let (oid, fields) ← nextTagged 0x06 "ContentInfo missing OID" "ContentInfo OID malformed"
    (children outer.value)
  let oid ← checkOid oid.value "ContentInfo OID malformed"
  ensure (oid = Oid.signedData) (.unexpectedStructure "ContentInfo not SignedData")
  let (explicit, fields) ← nextTagged 0xA0 "ContentInfo missing [0] EXPLICIT"
    "ContentInfo content tag not [0] EXPLICIT" fields
  ensure fields.isEmpty (.unexpectedStructure "ContentInfo has trailing fields")
  let inner ← parseExact 0x30 explicit.value "trailing bytes in ContentInfo content"
  return inner.value

/-- The three wrappings of `SignedData::parse`: bare, in a ContentInfo, and EF.SOD's. -/
def unwrapSignedData (input : Bytes) : Except CmsError Bytes :=
  match input with
  | [] => shape "empty input"
  | first :: _ =>
    if first = 0x77 then do
      let outer ← parseExact 0x77 input "trailing bytes after EF.SOD wrapper"
      decodeContentInfo outer.value
    else if first = 0x30 then do
      let outer ← parseExact 0x30 input "trailing bytes after CMS value"
      let (firstAny, _) ← nextAny "empty" (children outer.value)
      -- a bare SignedData starts with its INTEGER version, a ContentInfo with an OID
      if firstAny.tag = 0x06 then decodeContentInfo input else pure outer.value
    else shape "unknown wrapper tag"

/-- `SignedData::parse`. -/
def SignedData.parse (input : Bytes) : Except CmsError SignedData := do
  let body ← unwrapSignedData input
  parseSignedDataBody body

/-! ## §7. Verification -/

section
variable (E : Externals) (S : SignatureChecks)

/-- `verify_dispatch`: the key-type identifiers take the hash of the signerInfo. -/
def verifyDispatch (sigAlgOid : Bytes) (fallback : HashAlg) (spkiDer payload signature : Bytes) :
    Except CmsError Unit :=
  let rsaHash :=
    if sigAlgOid = Oid.sha256WithRsa then some .sha256
    else if sigAlgOid = Oid.sha384WithRsa then some .sha384
    else if sigAlgOid = Oid.sha512WithRsa then some .sha512
    else if sigAlgOid = Oid.rsaEncryption then some fallback
    else none
  let ecdsaHash :=
    if sigAlgOid = Oid.ecdsaWithSha256 then some .sha256
    else if sigAlgOid = Oid.ecdsaWithSha384 then some .sha384
    else if sigAlgOid = Oid.ecdsaWithSha512 then some .sha512
    else if sigAlgOid = Oid.ecPublicKey then some fallback
    else none
  match rsaHash, ecdsaHash with
  | some hash, _ => do
    let key ← okOr .badSignerKey (S.rsaKey spkiDer)
    (S.rsaVerify hash key payload signature).mapError .rsa
  | none, some hash => do
    let key ← okOr .badSignerKey (S.ecKey spkiDer)
    (S.ecVerify key signature (E.sha2 hash payload)).mapError .ecdsa
  | none, none => .error .unsupportedSignatureAlgorithm

/-- The check that signed attributes bind the content. -/
def checkMessageDigest (hash : HashAlg) (sd : SignedData) : Except CmsError Unit :=
  match sd.signer.signedDataToVerify with
  | none => .ok ()
  | some _ => do
    let md ← okOr (.unexpectedStructure "signedAttrs missing messageDigest")
      sd.signer.messageDigest
    ensure (E.sha2 hash sd.econtentDer = md) .signerHashMismatch

/-- `SignedData::verify`. -/
def SignedData.verify (sd : SignedData) (signerSpkiDer : Bytes) : Except CmsError Unit := do
  let hash ← okOr .unsupportedDigestAlgorithm (hashFromOid sd.signer.digestAlgorithmOid)
  checkMessageDigest E hash sd
  let payload := sd.signer.signedDataToVerify.getD sd.econtentDer
  verifyDispatch E S sd.signer.signatureAlgorithmOid hash signerSpkiDer payload sd.signer.signature

end

/-! ## §8. What a parsed message holds -/

/-- The octets of signedAttrs, and everything that was taken from them. -/
structure SignedAttrsOf (sd : SignedData) (attrs : Bytes) : Prop where
  signed : sd.signer.signedDataToVerify = some (rebuiltSet attrs)
  parsed : parseAttributes attrs true =
    .ok ⟨sd.signer.signedAttributes, some sd.econtentTypeOid, sd.signer.messageDigest⟩

theorem parseSignedAttrs_some {expected : Bytes} {signedAttrs : Option Bytes}
    {signed : Bytes} {attributes : List SignedAttribute} {digest : Option Bytes}
    (h : parseSignedAttrs expected signedAttrs = .ok (some signed, attributes, digest)) :
    ∃ attrs, signed = rebuiltSet attrs ∧
      parseAttributes attrs true = .ok ⟨attributes, some expected, digest⟩ := by
  cases signedAttrs with
  | none => exact absurd h (by simp [parseSignedAttrs])
  | some attrs =>
    simp only [parseSignedAttrs, bind_eq_ok, ensure_eq_ok, pure_eq_ok, decide_eq_true_eq] at h
    obtain ⟨parsed, hparsed, _, hct, hres⟩ := h
    injection hres with h1 h2
    injection h2 with h2 h3
    injection h1 with h1
    refine ⟨attrs, h1.symm, ?_⟩
    rw [hparsed, ← h2, ← h3, ← hct]

theorem parseSignerInfo_signedAttrs {body expected : Bytes} {signer : SignerInfo}
    (h : parseSignerInfo body expected = .ok signer)
    (hs : signer.signedDataToVerify.isSome = true) :
    ∃ attrs, signer.signedDataToVerify = some (rebuiltSet attrs) ∧
      parseAttributes attrs true =
        .ok ⟨signer.signedAttributes, some expected, signer.messageDigest⟩ := by
  simp only [parseSignerInfo, bind_eq_ok, pure_eq_ok] at h
  obtain ⟨_, _, _, _, _, _, _, _, _, _, _, _, _, _, _, _, _, _, _, _, p, hp, rfl⟩ := h
  obtain ⟨signed, attributes, digest⟩ := p
  dsimp only at hs ⊢
  obtain ⟨s, rfl⟩ := Option.isSome_iff_exists.mp hs
  obtain ⟨attrs, rfl, hattrs⟩ := parseSignedAttrs_some hp
  exact ⟨attrs, rfl, hattrs⟩

/-- **One field holds everything that is signed**: the signature covers the octets that
    the content type, the digest and the attributes were read from. -/
theorem signedAttrs_bound {input : Bytes} {sd : SignedData} (h : SignedData.parse input = .ok sd)
    (hs : sd.signer.signedDataToVerify.isSome = true) : ∃ attrs, SignedAttrsOf sd attrs := by
  simp only [SignedData.parse, bind_eq_ok] at h
  obtain ⟨body, -, h⟩ := h
  simp only [parseSignedDataBody, bind_eq_ok, pure_eq_ok] at h
  obtain ⟨_, _, _, _, _, _, _, _, _, _, _, _, _, _, oid, _, _, _, _, _, _, _, _, _, _, _, signer,
    hsigner, _, _, rfl⟩ := h
  dsimp only at hs
  obtain ⟨attrs, h1, h2⟩ := parseSignerInfo_signedAttrs hsigner hs
  exact ⟨attrs, h1, h2⟩

/-! ## §9. The messageDigest attribute -/

/-- The attributes seen so far and the digest taken from them agree: there is one
    messageDigest attribute, with one OCTET STRING as its value, or none. -/
def DigestInv (acc : ParsedAttributes) : Prop :=
  match acc.messageDigest with
  | none => acc.attributes.filter (fun a => a.oid = Oid.messageDigest) = []
  | some digest => ∃ a t, acc.attributes.filter (fun a => a.oid = Oid.messageDigest) = [a] ∧
      parseExact 0x04 a.valuesDer "messageDigest attribute has multiple values" = .ok t ∧
      t.value = digest

theorem digestInv_other {acc acc' : ParsedAttributes} {a : SignedAttribute}
    (hinv : DigestInv acc) (ha : a.oid ≠ Oid.messageDigest)
    (hattrs : acc'.attributes = acc.attributes ++ [a])
    (hdigest : acc'.messageDigest = acc.messageDigest) : DigestInv acc' := by
  unfold DigestInv at hinv ⊢
  rw [hattrs, hdigest, List.filter_append]
  have hnone : [a].filter (fun a => a.oid = Oid.messageDigest) = [] := by simp [ha]
  rw [hnone, List.append_nil]
  exact hinv

theorem addAttribute_digestInv {acc acc' : ParsedAttributes} {a : SignedAttribute}
    (h : addAttribute true acc a = .ok acc') (hinv : DigestInv acc) : DigestInv acc' := by
  unfold addAttribute at h
  by_cases hct : a.oid = Oid.contentType
  · have hne : a.oid ≠ Oid.messageDigest := by
      rw [hct]
      decide
    rw [if_pos (by simp [hct])] at h
    simp only [bind_eq_ok, pure_eq_ok] at h
    obtain ⟨_, _, _, _, oid, _, rfl⟩ := h
    exact digestInv_other hinv hne rfl rfl
  · rw [if_neg (by simp [hct])] at h
    by_cases hmd : a.oid = Oid.messageDigest
    · rw [if_pos (by simp [hmd])] at h
      simp only [bind_eq_ok, pure_eq_ok, ensure_eq_ok] at h
      obtain ⟨_, hfirst, t, ht, rfl⟩ := h
      have hnone : acc.messageDigest = none := by simpa using hfirst
      unfold DigestInv at hinv ⊢
      rw [hnone] at hinv
      refine ⟨a, t, ?_, ht, rfl⟩
      rw [List.filter_append, hinv]
      simp [hmd]
    · rw [if_neg (by simp [hmd])] at h
      rw [pure_eq_ok] at h
      rw [← h]
      exact digestInv_other hinv hmd rfl rfl

theorem attributesLoop_digestInv {fields : Fields} {acc acc' : ParsedAttributes}
    (h : attributesLoop true acc fields = .ok acc') (hinv : DigestInv acc) : DigestInv acc' := by
  induction fields generalizing acc with
  | nil =>
    injection h with h
    exact h ▸ hinv
  | cons field rest ih =>
    cases field with
    | error e => exact absurd h (by simp [attributesLoop])
    | ok attr =>
      simp only [attributesLoop, bind_eq_ok] at h
      obtain ⟨a, -, acc1, hadd, hrest⟩ := h
      exact ih hrest (addAttribute_digestInv hadd hinv)

/-- **The digest is the one messageDigest attribute's value.** -/
theorem parseAttributes_digest {attrs : Bytes} {parsed : ParsedAttributes}
    (h : parseAttributes attrs true = .ok parsed) : DigestInv parsed := by
  simp only [parseAttributes, bind_eq_ok, pure_eq_ok] at h
  obtain ⟨p, hloop, _, _, _, _, rfl⟩ := h
  exact attributesLoop_digestInv hloop (by simp [DigestInv])

/-- **What a verified message says**: the digest attribute is the hash of the content, and
    the signature over the attributes verifies. -/
theorem verify_ok {E : Externals} {S : SignatureChecks} {sd : SignedData} {spki signed : Bytes}
    (h : sd.verify E S spki = .ok ()) (hs : sd.signer.signedDataToVerify = some signed) :
    ∃ hash, hashFromOid sd.signer.digestAlgorithmOid = some hash ∧
      sd.signer.messageDigest = some (E.sha2 hash sd.econtentDer) ∧
      verifyDispatch E S sd.signer.signatureAlgorithmOid hash spki signed
        sd.signer.signature = .ok () := by
  simp only [SignedData.verify, bind_eq_ok, okOr_eq_ok] at h
  obtain ⟨hash, hhash, _, hmd, hdispatch⟩ := h
  rw [hs] at hdispatch
  unfold checkMessageDigest at hmd
  rw [hs] at hmd
  simp only [bind_eq_ok, okOr_eq_ok, ensure_eq_ok, decide_eq_true_eq] at hmd
  obtain ⟨md, hmd, heq⟩ := hmd
  exact ⟨hash, hhash, by rw [hmd, heq], hdispatch⟩

end Cms

end RefineId
