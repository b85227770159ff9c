/-
  RefineId.Timestamp — RFC 3161 requests and tokens.
  ════════════════════════════════════════════════════════════════════════════

  `crates/refineid-doc-sign/src/timestamp.rs`: the request that is sent to a time-stamp
  authority, and `verified_token`, which takes the answer apart.  The answer comes over
  plain HTTP from a party that is not trusted; five nested structures (response, CMS
  message, signed attributes, TSTInfo, certificate) have to be about the same bytes and
  the same signer.

  The functions follow the source field by field, with its error texts.
-/
import RefineId.Cades
import RefineId.Cms
import RefineId.Lib.Utf8

namespace RefineId

namespace Timestamp

open Ber Lib Cms Cades

/-! ## §1. Errors and results -/

/-- `TimestampError`. -/
inductive TimestampError where
  | malformed (what : String)
  | rejected (status : Nat)
  | noToken
  | imprintMismatch
  | nonceMismatch
  | tokenSignatureInvalid
  | noMatchingTsaCertificate
  | ambiguousTsaCertificate
  | signingCertificateAttributeInvalid
  | tsaNameMismatch
  | noUsableTsaCertificate
  deriving Repr, DecidableEq

/-- `VerifiedTimestampToken`. -/
structure VerifiedTimestampToken where
  token : Bytes
  signerCertificate : Bytes
  embeddedCertificates : List Bytes
  generatedAt : DateTime
  deriving Repr, DecidableEq

def malformed {α : Type} (what : String) : Except TimestampError α := .error (.malformed what)

/-! ## §2. The request -/

/-- `positive_integer`: minimal, and with a sign octet when the top bit is set. -/
def positiveInteger (bytes : Bytes) : Bytes :=
  match bytes.dropWhile (fun b => b = 0) with
  | [] => [0]
  | first :: rest => if first &&& 0x80 ≠ 0 then 0 :: first :: rest else first :: rest

/-- The nonce field of a request. -/
def nonceField : Option Bytes → Option Bytes
  | none => some []
  | some nonce => tlv 0x02 (positiveInteger nonce)

/-- The certReq field, which is only written when true. -/
def certReqField (requestCertificate : Bool) : Option Bytes :=
  if requestCertificate then tlv 0x01 [0xFF] else some []

/-- `request`; `none` is the panic of the encoder on four gigabytes. -/
def request (digest : Bytes) (algorithm : DigestAlgorithm) (nonce : Option Bytes)
    (requestCertificate : Bool) : Option Bytes := do
  let imprint := (← algorithm.algorithmIdentifier) ++ (← tlv 0x04 digest)
  let version ← tlv 0x02 [0x01]
  let nonceTlv ← nonceField nonce
  let certReq ← certReqField requestCertificate
  tlv 0x30 (version ++ (← tlv 0x30 imprint) ++ nonceTlv ++ certReq)

/-! ## §3. Integers, bit strings and fields -/

/-- `nonnegative_der_integer`. -/
def nonnegativeDerInteger : Bytes → Bool
  | [] => false
  | [first] => first &&& 0x80 = 0
  | first :: second :: _ => first &&& 0x80 = 0 && !(first = 0 && second &&& 0x80 = 0)

/-- `unsigned_integer`: at most nine octets, and the value fits 64 bits. -/
def unsignedInteger (value : Bytes) : Option Nat :=
  if !nonnegativeDerInteger value || value.length > 9 then none
  else if beValue value < 2 ^ 64 then some (beValue value)
  else none

/-- `validate_bit_string`. -/
def validateBitString (value : Bytes) (what : String) : Except TimestampError Unit :=
  match value with
  | [] => malformed what
  | unused :: bits =>
    if unused > 7 then malformed what
    else match bits.getLast? with
      | none => ensure (unused = 0) (.malformed what)
      | some last =>
        ensure (last.toNat % 2 ^ unused.toNat = 0) (.malformed what)

/-- `next_any`. -/
def nextAny (missing : String) : Fields → Except TimestampError (BerTlvAny × Fields)
  | .ok t :: rest => .ok (t, rest)
  | _ => malformed missing

/-- `next_integer`, `next_oid`, `next_sequence` and `next_octet_string`. -/
def nextTagged (tag : Nat) (missing : String) (fields : Fields) :
    Except TimestampError (BerTlvAny × Fields) := do
  let (t, rest) ← nextAny missing fields
  ensure (t.tag = tag) (.malformed missing)
  return (t, rest)

/-- `parse_exact`. -/
def parseExact (tag : Nat) (input : Bytes) (what : String) :
    Except TimestampError BerTlvAny := do
  let t ← (parseExpect tag input).mapError fun _ => .malformed what
  ensure (t.size = input.length) (.malformed what)
  return t

/-- `for child in it { child.map_err(..)? }`. -/
def drain (what : String) (fields : Fields) : Except TimestampError (List BerTlvAny) :=
  collect (fun _ => .malformed what) fields

/-- `parse_algorithm_identifier`: no parameters, or NULL. -/
def parseAlgorithmIdentifier (body : Bytes) : Except TimestampError Bytes := do
  let (oid, fields) ← nextTagged 0x06 "AlgorithmIdentifier missing OID" (children body)
  ensure (Oid.wellFormed oid.value) (.malformed "AlgorithmIdentifier OID malformed")
  match fields with
  | [] => return oid.value
  | .error _ :: _ => malformed "AlgorithmIdentifier malformed"
  | .ok parameters :: rest =>
    ensure (parameters.tag = 0x05 && parameters.value.isEmpty)
      (.malformed "AlgorithmIdentifier parameters are not NULL")
    ensure rest.isEmpty (.malformed "AlgorithmIdentifier has trailing fields")
    return oid.value

/-! ## §4. Mailboxes -/

/-- `EmailAddressError`. -/
inductive EmailAddressError where
  | empty
  | tooLong (got max : Nat)
  | noAtSign
  | multipleAtSigns (count : Nat)
  | emptyLocalPart
  | emptyDomainPart
  | whitespace (offset : Nat)
  deriving Repr, DecidableEq

/-- `EmailAddress::new`. -/
def emailAddress (s : Text) : Except EmailAddressError Text :=
  let len := (utf8Encode s).length
  if s.isEmpty then .error .empty
  else if 254 < len then .error (.tooLong len 254)
  else match s.findIdx? isWhitespace with
    | some i => .error (.whitespace (utf8Encode (s.take i)).length)
    | none =>
      match s.findIdx? (· = '@') with
      | none => .error .noAtSign
      | some i =>
        let domain := s.drop (i + 1)
        if '@' ∈ domain then .error (.multipleAtSigns (s.count '@'))
        else if i = 0 then .error .emptyLocalPart
        else if domain.isEmpty then .error .emptyDomainPart
        else .ok s

/-- A mailbox that is UTF-8 and an address; what is kept are its octets. -/
def checkMailbox (value : Bytes) (notUtf8 notAddress : String) : Except TimestampError Unit := do
  let text ← okOr (.malformed notUtf8) (fromUtf8 value)
  let _ ← (emailAddress text).mapError fun _ => TimestampError.malformed notAddress

/-! ## §5. Certificate extensions -/

/-- `ParsedKeyUsage`. -/
structure ParsedKeyUsage where
  allowsTimestampSignature : Bool
  allowsCaSigning : Bool
  deriving Repr, DecidableEq

/-- `ParsedExtendedKeyUsage`. -/
structure ParsedExtendedKeyUsage where
  oids : List Bytes
  critical : Bool
  deriving Repr, DecidableEq

/-- `ParsedExtensions`. -/
structure ParsedExtensions where
  subjectKeyIdentifier : Option Bytes := none
  basicConstraintsCa : Bool := false
  keyUsage : Option ParsedKeyUsage := none
  extendedKeyUsage : Option ParsedExtendedKeyUsage := none
  subjectAltRfc822Names : List Bytes := []
  deriving Repr, DecidableEq

/-- `ExtensionBooleanPolicy`. -/
inductive ExtensionBooleanPolicy where
  | strictDer
  | allowExplicitFalse
  deriving Repr, DecidableEq

/-- The names of `parse_subject_alt_names`. -/
def altNamesLoop (critical : Bool) : Fields → Except TimestampError (List Bytes)
  | [] => .ok []
  | .error _ :: _ => malformed "GeneralName malformed"
  | .ok name :: rest => do
    if name.tag = 0x81 then
      checkMailbox name.value "SAN rfc822Name is not UTF-8" "SAN rfc822Name malformed"
      let mailboxes ← altNamesLoop critical rest
      return name.value :: mailboxes
    else
      ensure (!critical) (.malformed "unsupported GeneralName in critical TSA SAN")
      altNamesLoop critical rest

/-- `parse_subject_alt_names`. -/
def parseSubjectAltNames (value : Bytes) (critical : Bool) :
    Except TimestampError (List Bytes) := do
  let outer ← parseExact 0x30 value "Subject Alternative Name malformed"
  let mailboxes ← altNamesLoop critical (children outer.value)
  ensure (!(children outer.value).isEmpty) (.malformed "Subject Alternative Name is empty")
  return mailboxes

/-- The pathLen part of `parse_basic_constraints`. -/
def parsePathLen (ca : Bool) : Fields → Except TimestampError Unit
  | [] => .ok ()
  | .error _ :: _ =>
    malformed (if ca then "Basic Constraints pathLen malformed"
      else "Basic Constraints child malformed")
  | .ok pathLen :: rest => do
    ensure (pathLen.tag = 0x02) (.malformed "Basic Constraints pathLen is not INTEGER")
    ensure (ca && (unsignedInteger pathLen.value).isSome)
      (.malformed "Basic Constraints pathLen invalid")
    ensure rest.isEmpty (.malformed "Basic Constraints has trailing fields")

/-- `parse_basic_constraints`. -/
def parseBasicConstraints (value : Bytes) : Except TimestampError Bool := do
  let outer ← parseExact 0x30 value "Basic Constraints malformed"
  match children outer.value with
  | .ok flag :: rest =>
    if flag.tag = 0x01 then
      ensure (flag.value = [0xFF]) (.malformed "Basic Constraints cA is not canonical DER TRUE")
      parsePathLen true rest
      return true
    else
      parsePathLen false (.ok flag :: rest)
      return false
  | fields =>
    parsePathLen false fields
    return false

/-- `u8::trailing_zeros`. -/
def trailingZeros (b : UInt8) : Nat :=
  ((List.range 8).find? fun i => b.toNat / 2 ^ i % 2 = 1).getD 8

/-- `parse_key_usage`. -/
def parseKeyUsage (value : Bytes) : Except TimestampError ParsedKeyUsage := do
  let bitString ← parseExact 0x03 value "Key Usage malformed"
  validateBitString bitString.value "Key Usage BIT STRING malformed"
  match bitString.value with
  | [] => malformed "Key Usage BIT STRING empty"
  | unused :: bits =>
    ensure (!bits.isEmpty && bits.length ≤ 2) (.malformed "Key Usage width invalid")
    let last := bits.getLastD 0
    ensure (last ≠ 0 && trailingZeros last = unused.toNat)
      (.malformed "Key Usage named bits are not DER-minimal")
    let first := bits.headD 0
    let second := (bits.drop 1).headD 0
    ensure (second &&& 0x7F = 0) (.malformed "Key Usage has unknown bits")
    return ⟨first &&& 0xC0 ≠ 0, first &&& 0x06 ≠ 0⟩

/-- The loop of `parse_extended_key_usage`. -/
def ekuLoop (oids : List Bytes) : Fields → Except TimestampError (List Bytes)
  | [] => .ok oids
  | .error _ :: _ => malformed "EKU entry malformed"
  | .ok t :: rest => do
    ensure (t.tag = 0x06) (.malformed "EKU entry is not OID")
    ensure (Oid.wellFormed t.value) (.malformed "EKU OID malformed")
    ensure (!oids.contains t.value) (.malformed "duplicate EKU OID")
    ekuLoop (oids ++ [t.value]) rest

/-- `parse_extended_key_usage`. -/
def parseExtendedKeyUsage (value : Bytes) (critical : Bool) :
    Except TimestampError ParsedExtendedKeyUsage := do
  let outer ← parseExact 0x30 value "Extended Key Usage malformed"
  let oids ← ekuLoop [] (children outer.value)
  ensure (!oids.isEmpty) (.malformed "Extended Key Usage is empty")
  return ⟨oids, critical⟩

/-- One Extension: its OID, the critical flag and the contents of extnValue. -/
structure Extension where
  oid : Bytes
  critical : Bool
  value : Bytes
  deriving Repr, DecidableEq

/-- The critical flag. -/
def parseCritical (policy : ExtensionBooleanPolicy) (flag : Bytes) : Except TimestampError Bool :=
  if flag = [0xFF] then .ok true
  else if flag = [0x00] ∧ policy = .allowExplicitFalse then .ok false
  else malformed "extension critical flag is not canonical DER TRUE"

/-- The critical flag, when there is one, and the extnValue. -/
def parseExtnValue (policy : ExtensionBooleanPolicy) (next : BerTlvAny) (fields : Fields) :
    Except TimestampError (Bool × BerTlvAny × Fields) :=
  if next.tag = 0x01 then do
    let critical ← parseCritical policy next.value
    let (value, fields) ← nextTagged 0x04 "extension missing extnValue" fields
    return (critical, value, fields)
  else do
    ensure (next.tag = 0x04) (.malformed "extnValue is not OCTET STRING")
    return (false, next, fields)

/-- The fields of one Extension after its OID. -/
def parseExtensionFields (policy : ExtensionBooleanPolicy) (oid : Bytes) (fields : Fields) :
    Except TimestampError Extension := do
  let (next, fields) ← nextAny "extension missing extnValue" fields
  let (critical, value, fields) ← parseExtnValue policy next fields
  ensure fields.isEmpty (.malformed "extension has trailing fields")
  return ⟨oid, critical, value.value⟩

/-- What one extension adds to the parsed ones. -/
def addExtension (acc : ParsedExtensions) (x : Extension) :
    Except TimestampError ParsedExtensions :=
  if x.oid = Oid.subjectKeyIdentifier then do
    let ski ← parseExact 0x04 x.value "subjectKeyIdentifier extension malformed"
    ensure (!ski.value.isEmpty) (.malformed "subjectKeyIdentifier extension is empty")
    return { acc with subjectKeyIdentifier := some ski.value }
  else if x.oid = Oid.basicConstraints then do
    let ca ← parseBasicConstraints x.value
    return { acc with basicConstraintsCa := ca }
  else if x.oid = Oid.keyUsage then do
    let usage ← parseKeyUsage x.value
    return { acc with keyUsage := some usage }
  else if x.oid = Oid.extKeyUsage then do
    let eku ← parseExtendedKeyUsage x.value x.critical
    return { acc with extendedKeyUsage := some eku }
  else if x.oid = Oid.subjectAltName then do
    let names ← parseSubjectAltNames x.value x.critical
    return { acc with subjectAltRfc822Names := names }
  else if x.critical then malformed "unsupported critical TSA certificate extension"
  else return acc

/-- The OID of one Extension, and its other fields. -/
def extensionOid (t : BerTlvAny) : Except TimestampError (Bytes × Fields) := do
  ensure (t.tag = 0x30) (.malformed "extension is not SEQUENCE")
  let (oid, fields) ← nextTagged 0x06 "extension missing OID" (children t.value)
  ensure (Oid.wellFormed oid.value) (.malformed "extension OID malformed")
  return (oid.value, fields)

/-- The loop of `parse_extensions_with_policy`. -/
def extensionsLoop (policy : ExtensionBooleanPolicy) (seen : List Bytes)
    (acc : ParsedExtensions) : Fields → Except TimestampError (List Bytes × ParsedExtensions)
  | [] => .ok (seen, acc)
  | .error _ :: _ => malformed "extension malformed"
  | .ok t :: rest => do
    let (oid, fields) ← extensionOid t
    ensure (!seen.contains oid) (.malformed "duplicate certificate extension")
    let x ← parseExtensionFields policy oid fields
    let acc ← addExtension acc x
    extensionsLoop policy (seen ++ [oid]) acc rest

/-- `parse_extensions_with_policy`. -/
def parseExtensionsWithPolicy (extensions : Bytes) (policy : ExtensionBooleanPolicy) :
    Except TimestampError ParsedExtensions := do
  let (seen, parsed) ← extensionsLoop policy [] {} (children extensions)
  ensure (!seen.isEmpty) (.malformed "Extensions is empty")
  return parsed

/-- `parse_extensions`. -/
def parseExtensions (extensions : Bytes) : Except TimestampError ParsedExtensions :=
  parseExtensionsWithPolicy extensions .strictDer

/-- `parse_timestamp_extensions`. -/
def parseTimestampExtensions (extensions : Bytes) : Except TimestampError ParsedExtensions :=
  parseExtensionsWithPolicy extensions .allowExplicitFalse

section
variable (E : Externals)

/-! ## §6. TSTInfo -/

/-- `TsaName`. -/
inductive TsaName where
  | directoryName (nameDer : Bytes)
  | rfc822Name (mailbox : Bytes)
  deriving Repr, DecidableEq

/-- `TstInfo`. -/
structure TstInfo where
  imprintAlgorithmOid : Bytes
  messageImprint : Bytes
  genTime : DateTime
  nonce : Option Bytes
  tsa : Option TsaName
  deriving Repr, DecidableEq

/-- One optional field at the front: read it if it has the tag, else leave the rest. -/
def takeOptional {α : Type} (tag : Nat) (default : α) (read : Bytes → Except TimestampError α) :
    List BerTlvAny → Except TimestampError (α × List BerTlvAny)
  | [] => .ok (default, [])
  | field :: rest =>
    if field.tag = tag then do
      let a ← read field.value
      return (a, rest)
    else .ok (default, field :: rest)

/-- One of the two sub-second fields of Accuracy. -/
def parseFraction (what : String) (value : Bytes) : Except TimestampError Unit := do
  let n ← okOr (.malformed what) (unsignedInteger value)
  ensure (1 ≤ n && n ≤ 999) (.malformed what)

/-- `parse_accuracy`. -/
def parseAccuracy (body : Bytes) : Except TimestampError Unit := do
  let fields ← drain "Accuracy malformed" (children body)
  let (_, rest) ← takeOptional 0x02 () (fun value => do
    let seconds ← okOr (.malformed "Accuracy seconds malformed") (unsignedInteger value)
    ensure (seconds ≠ 0) (.malformed "Accuracy seconds is zero")) fields
  let (_, rest) ← takeOptional 0x80 () (parseFraction "Accuracy millis malformed") rest
  let (_, rest) ← takeOptional 0x81 () (parseFraction "Accuracy micros malformed") rest
  ensure (rest.isEmpty && !fields.isEmpty)
    (.malformed "Accuracy has unknown, duplicate, or out-of-order fields")

/-- The ordering flag: only TRUE is written. -/
def parseOrdering (value : Bytes) : Except TimestampError Unit :=
  ensure (value = [0xFF]) (.malformed "TSTInfo ordering is not canonical DER TRUE")

/-- The nonce. -/
def parseNonce (value : Bytes) : Except TimestampError (Option Bytes) := do
  ensure (nonnegativeDerInteger value)
    (.malformed "TSTInfo nonce is not a non-negative DER INTEGER")
  return some value

/-- The tsa name: a Name or a mailbox. -/
def parseTsa (value : Bytes) : Except TimestampError (Option TsaName) := do
  let name ← (BerTlvAny.parse value).mapError fun _ => TimestampError.malformed "TSTInfo tsa malformed"
  ensure (name.size = value.length) (.malformed "TSTInfo tsa has trailing bytes")
  if name.tag = 0xA4 then
    -- `Name::try_from`: one SEQUENCE
    ensure ((E.anyFromDer name.value).any fun t => t.1 = 0x30)
      (.malformed "TSTInfo tsa directoryName malformed")
    return some (.directoryName name.value)
  else if name.tag = 0x81 then
    checkMailbox name.value "TSTInfo tsa rfc822Name is not UTF-8"
      "TSTInfo tsa rfc822Name malformed"
    return some (.rfc822Name name.value)
  else malformed "unsupported TSTInfo tsa GeneralName"

/-- `parse_tst_info_optional_fields`. -/
def parseTstInfoOptionalFields (optional : List BerTlvAny) :
    Except TimestampError (Option Bytes × Option TsaName) := do
  let (_, rest) ← takeOptional 0x30 () parseAccuracy optional
  let (_, rest) ← takeOptional 0x01 () parseOrdering rest
  let (nonce, rest) ← takeOptional 0x02 none parseNonce rest
  let (tsa, rest) ← takeOptional 0xA0 none (parseTsa E) rest
  let (_, rest) ← takeOptional 0xA1 () (fun value => do
    let _ ← parseTimestampExtensions value) rest
  ensure rest.isEmpty
    (.malformed "TSTInfo has duplicate, unknown, or out-of-order optional fields")
  return (nonce, tsa)

/-- `parse_message_imprint`. -/
def parseMessageImprint (imprint : Bytes) : Except TimestampError (Bytes × Bytes) := do
  let (algorithm, fields) ← nextTagged 0x30 "messageImprint missing hashAlgorithm"
    (children imprint)
  let oid ← parseAlgorithmIdentifier algorithm.value
  let (hashed, fields) ← nextTagged 0x04 "messageImprint missing hashedMessage" fields
  ensure fields.isEmpty (.malformed "messageImprint has trailing fields")
  return (oid, hashed.value)

/-- `parse_generalized_time`: the value under its tag again, for the decoder. -/
def parseGeneralizedTime (value : Bytes) : Except TimestampError DateTime :=
  okOr (.malformed "TSTInfo genTime is invalid") (E.generalizedTime ((tlv 0x18 value).getD []))

/-- `parse_tst_info`. -/
def parseTstInfo (econtent : Bytes) : Except TimestampError TstInfo := do
  let outer ← (parseExpect 0x30 econtent).mapError fun _ =>
    TimestampError.malformed "TSTInfo is not a SEQUENCE"
  ensure (outer.size = econtent.length) (.malformed "trailing bytes after TSTInfo")
  let (version, fields) ← nextTagged 0x02 "TSTInfo missing version" (children outer.value)
  ensure (unsignedInteger version.value = some 1) (.malformed "TSTInfo version is not v1")
  let (policy, fields) ← nextTagged 0x06 "TSTInfo missing policy" fields
  ensure (Oid.wellFormed policy.value) (.malformed "TSTInfo policy OID malformed")
  let (imprint, fields) ← nextTagged 0x30 "TSTInfo missing messageImprint" fields
  let (imprintAlgorithmOid, messageImprint) ← parseMessageImprint imprint.value
  let (serial, fields) ← nextTagged 0x02 "TSTInfo missing serialNumber" fields
  ensure (nonnegativeDerInteger serial.value)
    (.malformed "TSTInfo serialNumber is not a non-negative DER INTEGER")
  let (genTime, fields) ← nextAny "TSTInfo missing genTime" fields
  ensure (genTime.tag = 0x18) (.malformed "TSTInfo genTime is not GeneralizedTime")
  let genTime ← parseGeneralizedTime E genTime.value
  let optional ← drain "TSTInfo optional field malformed" fields
  let (nonce, tsa) ← parseTstInfoOptionalFields E optional
  return { imprintAlgorithmOid, messageImprint, genTime, nonce, tsa }

/-! ## §7. The signer's certificate -/

/-- `certificate_matches_sid`. -/
def certificateMatchesSid (certificate : Certificate) (sid : SignerIdentifier) :
    Except TimestampError Bool :=
  match sid with
  | .issuerAndSerialNumber issuerDer serialNumber =>
    .ok (certificate.issuer = issuerDer && certificate.serialDer = serialNumber)
  | .subjectKeyIdentifier wanted =>
    match certificate.extensions with
    | none => .ok false
    | some extensions => do
      let parsed ← parseExtensions extensions
      return parsed.subjectKeyIdentifier = some wanted

/-- The loop of `select_signer_certificate`: distinct certificates that match. -/
def matchingCertificates (sid : SignerIdentifier) :
    List Certificate → List Bytes → Except TimestampError (List Certificate)
  | found, [] => .ok found
  | found, der :: rest =>
    match Certificate.fromDer E der with
    | .error _ => matchingCertificates sid found rest
    | .ok certificate => do
      let ok ← certificateMatchesSid certificate sid
      if ok && !found.any (fun existing => existing.rawDer = der) then
        matchingCertificates sid (found ++ [certificate]) rest
      else matchingCertificates sid found rest

/-- `select_signer_certificate`. -/
def selectSignerCertificate (sd : SignedData) : Except TimestampError Certificate := do
  let found ← matchingCertificates E sd.signer.signerIdentifier [] sd.certificatesDer
  match found with
  | [] => .error .noMatchingTsaCertificate
  | [certificate] => return certificate
  | _ => .error .ambiguousTsaCertificate

/-- `tsa_name_matches_certificate`. -/
def tsaNameMatchesCertificate (tsa : TsaName) (certificate : Certificate) :
    Except TimestampError Bool :=
  match tsa with
  | .directoryName nameDer => .ok (nameDer = certificate.subject)
  | .rfc822Name mailbox =>
    match certificate.extensions with
    | none => .ok false
    | some extensions => do
      let parsed ← parseExtensions extensions
      return parsed.subjectAltRfc822Names.contains mailbox

/-- `tsa_certificate_is_usable`. -/
def tsaCertificateIsUsable (certificate : Certificate) (genTime : DateTime) :
    Except TimestampError Unit := do
  ensure (!(genTime < certificate.notBefore || certificate.notAfter < genTime))
    .noUsableTsaCertificate
  let extensions ← okOr .noUsableTsaCertificate certificate.extensions
  let parsed ← (parseExtensions extensions).mapError fun _ => .noUsableTsaCertificate
  ensure (!parsed.basicConstraintsCa) .noUsableTsaCertificate
  let eku ← okOr .noUsableTsaCertificate parsed.extendedKeyUsage
  ensure (eku.critical && eku.oids = [Oid.kpTimeStamping]) .noUsableTsaCertificate
  match parsed.keyUsage with
  | none => return ()
  | some usage =>
    ensure (usage.allowsTimestampSignature && !usage.allowsCaSigning) .noUsableTsaCertificate

/-! ## §8. The signing-certificate attribute -/

def essInvalid {α : Type} : Except TimestampError α := .error .signingCertificateAttributeInvalid

/-- `EssHashAlgorithm`. -/
inductive EssHashAlgorithm where
  | sha1
  | sha2 (hash : HashAlg)
  deriving Repr, DecidableEq

/-- `EssHashAlgorithm::digest`. -/
def EssHashAlgorithm.digest : EssHashAlgorithm → Bytes → Bytes
  | .sha1, input => E.sha1 input
  | .sha2 hash, input => E.sha2 hash input

/-- `EssCertificateReference`. -/
structure EssCertificateReference where
  hashAlgorithm : EssHashAlgorithm
  certHash : Bytes
  issuerSerial : Option Bytes
  deriving Repr, DecidableEq

/-- `fields.next().ok_or(..)?.map_err(..)?.expect::<T>().map_err(..)?`. -/
def essNext (tag : Nat) : Fields → Except TimestampError (BerTlvAny × Fields)
  | .ok t :: rest => if t.tag = tag then .ok (t, rest) else essInvalid
  | _ => essInvalid

/-- The names of an IssuerSerial. -/
def essNames : Fields → Except TimestampError Unit
  | [] => .ok ()
  | .error _ :: _ => essInvalid
  | .ok name :: rest => do
    if name.tag = 0xA4 then
      let _ ← (parseExact 0x30 name.value "ESS directoryName malformed").mapError fun _ =>
        TimestampError.signingCertificateAttributeInvalid
    essNames rest

/-- `validate_issuer_serial`. -/
def validateIssuerSerial (body : Bytes) : Except TimestampError Unit := do
  let (names, fields) ← essNext 0x30 (children body)
  essNames (children names.value)
  let (serial, fields) ← essNext 0x02 fields
  ensure (!(children names.value).isEmpty && nonnegativeDerInteger serial.value && fields.isEmpty)
    .signingCertificateAttributeInvalid

/-- `issuer_serial_matches`. -/
def issuerSerialMatches (body : Bytes) (certificate : Certificate) : Except TimestampError Bool := do
  validateIssuerSerial body
  let (names, fields) ← essNext 0x30 (children body)
  let issuerMatches := (children names.value).any fun
    | .ok name => name.tag = 0xA4 && name.value = certificate.issuer
    | .error _ => false
  let (serial, _) ← essNext 0x02 fields
  return issuerMatches && serial.value = certificate.serialDer

/-- The hash of an `ESSCertID` or `ESSCertIDv2`. -/
def parseEssHash (v2 : Bool) (fields : Fields) :
    Except TimestampError (EssHashAlgorithm × Bytes × Fields) :=
  match fields with
  | .ok first :: rest =>
    if v2 && first.tag = 0x30 then do
      let oid ← (parseAlgorithmIdentifier first.value).mapError fun _ =>
        TimestampError.signingCertificateAttributeInvalid
      let algorithm ← okOr .signingCertificateAttributeInvalid
        (if oid = Oid.sha1 then some EssHashAlgorithm.sha1
          else if oid = Oid.sha256 then some (.sha2 .sha256)
          else if oid = Oid.sha384 then some (.sha2 .sha384)
          else if oid = Oid.sha512 then some (.sha2 .sha512)
          else none)
      let (hash, rest) ← essNext 0x04 rest
      return (algorithm, hash.value, rest)
    else do
      let (hash, rest) ← essNext 0x04 (.ok first :: rest)
      return (if v2 then .sha2 .sha256 else .sha1, hash.value, rest)
  | _ => essInvalid

/-- `parse_ess_certificate_reference`. -/
def parseEssCertificateReference (body : Bytes) (v2 : Bool) :
    Except TimestampError EssCertificateReference := do
  let (hashAlgorithm, certHash, fields) ← parseEssHash v2 (children body)
  ensure (!certHash.isEmpty) .signingCertificateAttributeInvalid
  match fields with
  | [] => return ⟨hashAlgorithm, certHash, none⟩
  | fields =>
    let (issuerSerial, fields) ← essNext 0x30 fields
    ensure fields.isEmpty .signingCertificateAttributeInvalid
    validateIssuerSerial issuerSerial.value
    return ⟨hashAlgorithm, certHash, some issuerSerial.value⟩

/-- The further references, which only have to parse. -/
def essReferences (v2 : Bool) : Fields → Except TimestampError Unit
  | [] => .ok ()
  | fields@(_ :: rest) => do
    let (reference, _) ← essNext 0x30 fields
    let _ ← parseEssCertificateReference reference.value v2
    essReferences v2 rest

/-- The policies, which only have to be SEQUENCEs. -/
def essPolicies : Fields → Except TimestampError Unit
  | [] => .ok ()
  | fields@(_ :: rest) => do
    let _ ← essNext 0x30 fields
    essPolicies rest

/-- The one signing-certificate attribute, and whether it is of version 2. -/
def essAttribute (attributes : List SignedAttribute) :
    Except TimestampError (SignedAttribute × Bool) :=
  match attributes.filter (fun a => a.oid = Oid.signingCertificate),
      attributes.filter (fun a => a.oid = Oid.signingCertificateV2) with
  | [attr], [] => .ok (attr, false)
  | [], [attr] => .ok (attr, true)
  | _, _ => essInvalid

/-- `verify_signing_certificate_attribute`. -/
def verifySigningCertificateAttribute (sd : SignedData) (certificate : Certificate) :
    Except TimestampError Unit := do
  let (attr, v2) ← essAttribute sd.signer.signedAttributes
  let value ← (parseExact 0x30 attr.valuesDer
    "ESS attribute must have exactly one value").mapError fun _ =>
      TimestampError.signingCertificateAttributeInvalid
  let (certs, fields) ← essNext 0x30 (children value.value)
  let (first, references) ← essNext 0x30 (children certs.value)
  let reference ← parseEssCertificateReference first.value v2
  ensure (reference.hashAlgorithm.digest E certificate.rawDer = reference.certHash)
    .signingCertificateAttributeInvalid
  match reference.issuerSerial with
  | none => pure ()
  | some issuerSerial =>
    let ok ← issuerSerialMatches issuerSerial certificate
    ensure ok .signingCertificateAttributeInvalid
  essReferences v2 references
  match fields with
  | [] => return ()
  | fields =>
    let (policies, fields) ← essNext 0x30 fields
    essPolicies (children policies.value)
    ensure (!(children policies.value).isEmpty) .signingCertificateAttributeInvalid
    ensure fields.isEmpty .signingCertificateAttributeInvalid

/-! ## §9. The response -/

/-- The entries of a statusString. -/
def statusTexts : Fields → Except TimestampError Unit
  | [] => .ok ()
  | .error _ :: _ => malformed "statusString malformed"
  | .ok text :: rest => do
    ensure (text.tag = 0x0C) (.malformed "statusString entry is not UTF8String")
    statusTexts rest

/-- The statusString: at least one UTF8String. -/
def parseStatusString (value : Bytes) : Except TimestampError Unit := do
  statusTexts (children value)
  ensure (!(children value).isEmpty) (.malformed "statusString is empty")

/-- `parse_status_info`. -/
def parseStatusInfo (body : Bytes) : Except TimestampError Nat := do
  let fields ← drain "PKIStatusInfo malformed" (children body)
  match fields with
  | [] => malformed "no PKIStatus"
  | first :: rest =>
    ensure (first.tag = 0x02) (.malformed "PKIStatus is not INTEGER")
    let status ← okOr (.malformed "PKIStatus out of range") (unsignedInteger first.value)
    let (_, rest) ← takeOptional 0x30 () parseStatusString rest
    let (_, rest) ← takeOptional 0x03 () (fun value =>
      validateBitString value "failInfo BIT STRING malformed") rest
    ensure rest.isEmpty (.malformed "PKIStatusInfo has unknown or duplicate fields")
    return status

/-- The token after the status: the rest of the response, whole. -/
def tokenAfterStatus (afterStatus : Bytes) : Except TimestampError (Option Bytes) :=
  match afterStatus with
  | [] => .ok none
  | _ => do
    let token ← (BerTlvAny.parse afterStatus).mapError fun _ =>
      TimestampError.malformed "token does not parse"
    ensure (token.size = afterStatus.length) (.malformed "trailing bytes after timestamp token")
    return some (afterStatus.take token.size)

/-- `parseable_embedded_certificates`. -/
def parseableEmbeddedCertificates (sd : SignedData) : List Bytes :=
  sd.certificatesDer.foldl (fun certificates der =>
    if !(Certificate.fromDer E der).isOk || certificates.contains der then certificates
    else certificates ++ [der]) []

/-- `VerifiedBinding`. -/
structure VerifiedBinding where
  signerCertificate : Bytes
  embeddedCertificates : List Bytes
  generatedAt : DateTime
  deriving Repr, DecidableEq

variable (S : SignatureChecks)

/-- The nonce and imprint part of `check_binding`. -/
def checkRequest (tst : TstInfo) (expectedDigest : Bytes) (expectedAlgorithm : DigestAlgorithm)
    (nonce : Option Bytes) : Except TimestampError Unit := do
  ensure (tst.imprintAlgorithmOid = expectedAlgorithm.oid && tst.messageImprint = expectedDigest)
    .imprintMismatch
  match nonce with
  | none => return ()
  | some nonce => ensure (tst.nonce = some (positiveInteger nonce)) .nonceMismatch

/-- The tsa part of `check_binding`. -/
def checkTsaName (tst : TstInfo) (certificate : Certificate) : Except TimestampError Unit :=
  match tst.tsa with
  | none => .ok ()
  | some tsa => do
    let ok ← tsaNameMatchesCertificate tsa certificate
    ensure ok .tsaNameMismatch

/-- `check_binding`. -/
def checkBinding (token expectedDigest : Bytes) (expectedAlgorithm : DigestAlgorithm)
    (nonce : Option Bytes) : Except TimestampError VerifiedBinding := do
  let sd ← (SignedData.parse token).mapError fun _ =>
    TimestampError.malformed "token is not CMS SignedData"
  ensure (sd.econtentTypeOid = Oid.tstInfo) (.malformed "token eContentType is not TSTInfo")
  ensure sd.signer.signedDataToVerify.isSome
    (.malformed "token signerInfo has no signed attributes")
  let tst ← parseTstInfo E sd.econtentDer
  checkRequest tst expectedDigest expectedAlgorithm nonce
  let certificate ← selectSignerCertificate E sd
  checkTsaName tst certificate
  (sd.verify E S certificate.spki.der).mapError fun _ => .tokenSignatureInvalid
  verifySigningCertificateAttribute E sd certificate
  tsaCertificateIsUsable certificate tst.genTime
  return { signerCertificate := certificate.rawDer
           embeddedCertificates := parseableEmbeddedCertificates E sd
           generatedAt := tst.genTime }

/-- The response up to its token: status and token. -/
def readResponse (response : Bytes) : Except TimestampError (Nat × Option Bytes) := do
  let outer ← (parseExpect 0x30 response).mapError fun _ =>
    TimestampError.malformed "not a SEQUENCE"
  ensure (outer.size = response.length) (.malformed "trailing bytes after TimeStampResp")
  let statusInfo ← (BerTlvAny.parse outer.value).mapError fun _ =>
    TimestampError.malformed "no PKIStatusInfo"
  ensure (statusInfo.tag = 0x30) (.malformed "PKIStatusInfo is not a SEQUENCE")
  let status ← parseStatusInfo statusInfo.value
  let token ← tokenAfterStatus (outer.value.drop statusInfo.size)
  return (status, token)

/-- `verified_token`. -/
def verifiedToken (response expectedDigest : Bytes) (expectedAlgorithm : DigestAlgorithm)
    (nonce : Option Bytes) : Except TimestampError VerifiedTimestampToken := do
  let (status, token) ← readResponse response
  ensure (status = 0 || status = 1) (.rejected status)
  let token ← okOr .noToken token
  let binding ← checkBinding E S token expectedDigest expectedAlgorithm nonce
  return { token
           signerCertificate := binding.signerCertificate
           embeddedCertificates := binding.embeddedCertificates
           generatedAt := binding.generatedAt }

end

end Timestamp

end RefineId
