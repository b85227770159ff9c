/-
  RefineId.X509 — certificates and the signatures over them.
  ════════════════════════════════════════════════════════════════════════════

  `crates/refineid-lib-core/src/x509.rs`: `Certificate::from_der`, the walk over
  the extensions and the dispatch on the signature algorithm.

  The repository does not decode DER itself: it walks with the reader of the
  `der` crate, and it calls RSA, ECDSA and hash crates.  Those functions are the
  fields of `Externals`.  Of the reader one law is used: `tlv_bytes` splits off a
  nonempty prefix of what is left (it returns "a complete TLV production").

  Main results:
    • `elements_cons`  : the loop equation of `while !reader.is_finished()`; the loop
                         ends on every input.
    • `fromDer_rawDer` : a parsed certificate keeps exactly the bytes it was parsed
                         from.
-/
import RefineId.Oid

namespace RefineId

open Ber

/-- `der::DateTime` through `unix_duration()`: whole seconds; the crate orders it by time. -/
abbrev DateTime := Nat

/-! ## §1. What the external crates provide -/

/-- `spki::SubjectPublicKeyInfoRef`. -/
structure SpkiInfo where
  algorithmOid : Bytes
  parameters : Option (Nat × Bytes)
  subjectPublicKey : Bytes
  deriving Repr, DecidableEq

/-- The hash a signature algorithm names. -/
inductive HashAlg where
  | sha256
  | sha384
  | sha512
  deriving Repr, DecidableEq

structure RsaPublicKey where
  modulus : Bytes
  exponent : Bytes
  deriving Repr, DecidableEq

structure EcPublicKey where
  curve : Bytes
  point : Bytes
  deriving Repr, DecidableEq

/-- The `der`, `spki`, hash and signature crates, as given functions.  A tag is the
    number its identifier octets spell. -/
structure Externals where
  /-- `AnyRef::from_der`: the whole input is one element. -/
  anyFromDer : Bytes → Option (Nat × Bytes)
  /-- `SliceReader::new(bytes).is_ok()`. -/
  sliceReader : Bytes → Bool
  /-- `Reader::tlv_bytes`: the next element and what is left. -/
  tlvBytes : Bytes → Option (Bytes × Bytes)
  /-- `GeneralizedTime::from_der`. -/
  generalizedTime : Bytes → Option DateTime
  /-- `x509_cert::time::Validity::from_der`. -/
  validity : Bytes → Option (DateTime × DateTime)
  /-- `SubjectPublicKeyInfoRef::from_der`. -/
  spkiInfo : Bytes → Option SpkiInfo
  /-- `AnyRef::decode_as::<ObjectIdentifier>`. -/
  decodeOid : Nat × Bytes → Option Bytes
  sha1 : Bytes → Bytes
  sha2 : HashAlg → Bytes → Bytes
  extractRsaPublicKey : Bytes → Option RsaPublicKey
  verifyPkcs1v15 : HashAlg → RsaPublicKey → Bytes → Bytes → Except String Unit
  extractEcPubkey : Bytes → Option EcPublicKey
  verifyPrehashed : EcPublicKey → Bytes → Bytes → Except String Unit
  /-- `Display` of `DateTime`. -/
  showDateTime : DateTime → String
  tlvBytes_split : ∀ {bytes element rest}, tlvBytes bytes = some (element, rest) →
    bytes = element ++ rest ∧ element ≠ []

variable (E : Externals)

/-! ## §2. Errors -/

/-- `X509Error`. -/
inductive X509Error where
  | ber (e : BerError)
  | unexpectedStructure (what : String)
  | invalidTime
  | invalidString
  | berInContext (e : BerError) (what : String)
  deriving Repr, DecidableEq

/-- Rust's `{:#X}`. -/
def hexUpper (n : Nat) : String :=
  "0x" ++ (String.ofList (Nat.toDigits 16 n)).toUpper

/-- `Display` of `BerError`. -/
def showBerError : BerError → String
  | .empty => "BER: empty input"
  | .truncated => "BER: truncated input"
  | .unsupportedLengthForm => "BER: length form not supported"
  | .unexpectedTag expected got =>
    "BER: expected tag " ++ hexUpper expected ++ ", got " ++ hexUpper got

/-- `Display` of `X509Error`. -/
def X509Error.display : X509Error → String
  | .ber e => "X.509 BER: " ++ showBerError e
  | .unexpectedStructure s => "X.509: unexpected structure (" ++ s ++ ")"
  | .invalidTime => "X.509: invalid time encoding"
  | .invalidString => "X.509: invalid string encoding"
  | .berInContext e s => "X.509: BER decode at " ++ s ++ ": " ++ showBerError e

/-! ## §3. The reader -/

/-- `reader.tlv_bytes().map_err(|_| X509Error::UnexpectedStructure(what))`. -/
def readTlv (what : String) (reader : Bytes) : Except X509Error (Bytes × Bytes) :=
  match E.tlvBytes reader with
  | some r => .ok r
  | none => .error (.unexpectedStructure what)

/-- `AnyRef::from_der(der).map_err(|_| X509Error::UnexpectedStructure(what))`. -/
def readAny (what : String) (der : Bytes) : Except X509Error (Nat × Bytes) :=
  match E.anyFromDer der with
  | some r => .ok r
  | none => .error (.unexpectedStructure what)

/-- `SliceReader::new(bytes).map_err(|_| X509Error::UnexpectedStructure(what))`. -/
def openReader (what : String) (bytes : Bytes) : Except X509Error Bytes :=
  if E.sliceReader bytes then .ok bytes else .error (.unexpectedStructure what)

/-- `let x = opt.ok_or(X509Error::UnexpectedStructure(what))?`, and the other conditions
    that end in the same error. -/
def require (what : String) (ok : Bool) : Except X509Error Unit :=
  if ok then .ok () else .error (.unexpectedStructure what)

/-- One turn of a `while !reader.is_finished()` loop: a failed read ends it. -/
def nextElement (reader : Bytes) : Option Bytes × Option Bytes :=
  match E.tlvBytes reader with
  | some (element, rest) => (some element, some rest)
  | none => (none, none)

/-- `while !reader.is_finished() { reader.tlv_bytes() … }`: the elements it reads, a
    failed read as the last item. -/
def elements (reader : Bytes) : List (Option Bytes) :=
  Lib.unfold (nextElement E) reader

theorem nextElement_shrinks : Lib.Shrinks (nextElement E) := by
  intro input item rest h
  simp only [nextElement] at h
  split at h
  next element rest' ht =>
    obtain ⟨-, rfl⟩ : _ ∧ rest' = rest := by simpa using h
    obtain ⟨rfl, hne⟩ := E.tlvBytes_split ht
    have := List.length_pos_iff.mpr hne
    simp only [List.length_append]
    omega
  · simp at h

/-- **The reader's loop equation.** -/
theorem elements_cons (b : UInt8) (bs : Bytes) :
    elements E (b :: bs) =
      match E.tlvBytes (b :: bs) with
      | some (element, rest) => some element :: elements E rest
      | none => [none] := by
  rw [elements, Lib.unfold_cons (nextElement_shrinks E), nextElement]
  cases E.tlvBytes (b :: bs) <;> rfl

/-! ## §4. Subject public key information -/

/-- `rsa_public_key_parts`. -/
def rsaPublicKeyParts (der : Bytes) : Option (Bytes × Bytes) := do
  let (tag, value) ← E.anyFromDer der
  guard (tag = 0x30)
  guard (E.sliceReader value)
  let (modulus, reader) ← magnitude value
  let (exponent, _) ← magnitude reader
  return (modulus, exponent)
where
  /-- The inner `magnitude`: a leading zero before more octets is the sign octet. -/
  magnitude (reader : Bytes) : Option (Bytes × Bytes) := do
    let (element, rest) ← E.tlvBytes reader
    let (tag, value) ← E.anyFromDer element
    guard (tag = 0x02)
    return (match value with
      | 0 :: b :: bs => b :: bs
      | whole => whole, rest)

inductive EcCurve where
  | secp256r1
  | secp384r1
  | brainpoolP256r1
  | brainpoolP384r1
  | other
  deriving Repr, DecidableEq

/-- `PublicKeyAlgorithm`. -/
inductive PublicKeyAlgorithm where
  | rsa (modulusBits : Nat)
  | ec (curve : EcCurve)
  | ecExplicit (bits : Nat)
  | other
  deriving Repr, DecidableEq

/-- Bit length of a magnitude: eight per octet less the leading zeros of the first. -/
def magnitudeBits : Bytes → Option Nat
  | [] => none
  | first :: rest =>
    some ((first :: rest).length * 8 - (if first = 0 then 8 else 7 - Nat.log2 first.toNat))

/-- `explicit_curve_field_bits`. -/
def explicitCurveFieldBits (seqValue : Bytes) : Option Nat :=
  match children seqValue with
  | .ok _ :: .ok fieldId :: _ =>
    if fieldId.tag ≠ 0x30 then none
    else match children fieldId.value with
      | .ok _ :: .ok prime :: _ =>
        if prime.tag ≠ 0x02 then none
        else magnitudeBits (match prime.value with
          | 0 :: bs => bs
          | whole => whole)
      | _ => none
  | _ => none

/-- `PublicKeyAlgorithm::from_spki`. -/
def PublicKeyAlgorithm.fromSpki (info : SpkiInfo) : Option PublicKeyAlgorithm :=
  if info.algorithmOid = Oid.rsaEncryption then do
    let (modulus, _) ← rsaPublicKeyParts E info.subjectPublicKey
    return .rsa (← magnitudeBits modulus)
  else if info.algorithmOid = Oid.ecPublicKey then do
    let params ← info.parameters
    match E.decodeOid params with
    | some curve =>
      return .ec (if curve = Oid.secp256r1 then .secp256r1
        else if curve = Oid.secp384r1 then .secp384r1
        else if curve = Oid.brainpoolP256r1 then .brainpoolP256r1
        else if curve = Oid.brainpoolP384r1 then .brainpoolP384r1
        else .other)
    | none => return .ecExplicit ((explicitCurveFieldBits params.2).getD 0)
  else some .other

/-- `SpkiDer`. -/
structure SpkiDer where
  der : Bytes
  algorithm : PublicKeyAlgorithm
  subjectPublicKey : Bytes
  deriving Repr, DecidableEq

/-- `SpkiDer::try_from`. -/
def SpkiDer.tryFrom (der : Bytes) : Except X509Error SpkiDer :=
  match E.spkiInfo der with
  | none => .error (.unexpectedStructure "malformed SubjectPublicKeyInfo")
  | some info =>
    match PublicKeyAlgorithm.fromSpki E info with
    | none => .error (.unexpectedStructure "malformed SubjectPublicKeyInfo")
    | some algorithm => .ok ⟨der, algorithm, info.subjectPublicKey⟩

/-! ## §5. Certificates -/

/-- `Certificate`.  A `Name` is its DER bytes; names are compared as bytes. -/
structure Certificate where
  rawDer : Bytes
  tbsDer : Bytes
  serialDer : Bytes
  issuer : Bytes
  subject : Bytes
  notBefore : DateTime
  notAfter : DateTime
  spki : SpkiDer
  extensions : Option Bytes
  signatureAlgOid : Bytes
  signatureBits : Bytes
  deriving Repr, DecidableEq

/-- The trailing fields of a TBSCertificate; the last `[3]` wins. -/
def tbsExtensions : List (Option Bytes) → Option Bytes → Except X509Error (Option Bytes)
  | [], extensions => .ok extensions
  | none :: _, _ => .error (.unexpectedStructure "TBS trailing field")
  | some field :: rest, extensions => do
    let (tag, value) ← readAny E "TBS trailing field" field
    if tag = 0xA3 then
      let (_, inner) ← readAny E "extensions not SEQUENCE" value
      tbsExtensions rest (some inner)
    else tbsExtensions rest extensions

/-- `parse_tbs`. -/
def parseTbs (tbsDer raw signatureAlgOid signatureBits : Bytes) :
    Except X509Error Certificate := do
  let (tag, body) ← readAny E "tbsCertificate not a TLV" tbsDer
  require "tbsCertificate not SEQUENCE" (tag = 0x30)
  let r ← openReader E "tbsCertificate body" body
  let (firstTlv, r) ← readTlv E "TBS first field" r
  let (firstTag, firstValue) ← readAny E "TBS first field" firstTlv
  -- the optional [0] version comes before the serial number
  let (serialDer, r) ← if firstTag = 0xA0 then do
      let (serialTlv, r) ← readTlv E "serialNumber" r
      let (_, serial) ← readAny E "serialNumber" serialTlv
      pure (serial, r)
    else pure (firstValue, r)
  let (_, r) ← readTlv E "TBS signature alg" r
  let (issuer, r) ← readTlv E "issuer" r
  let (validityTlv, r) ← readTlv E "validity" r
  let (notBefore, notAfter) ← match E.validity validityTlv with
    | some v => .ok v
    | none => .error .invalidTime
  let (subject, r) ← readTlv E "subject" r
  let (spkiTlv, r) ← readTlv E "subjectPublicKeyInfo" r
  let spki ← SpkiDer.tryFrom E spkiTlv
  let extensions ← tbsExtensions E (elements E r) none
  return { rawDer := raw, tbsDer, serialDer, issuer, subject, notBefore, notAfter, spki,
           extensions, signatureAlgOid, signatureBits }

/-- `Certificate::from_der`. -/
def Certificate.fromDer (der : Bytes) : Except X509Error Certificate := do
  let (tag, body) ← readAny E "Certificate not a TLV" der
  require "Certificate not SEQUENCE" (tag = 0x30)
  let r ← openReader E "Certificate body" body
  let (tbsDer, r) ← readTlv E "tbsCertificate" r
  let (sigAlgTlv, r) ← readTlv E "signatureAlgorithm" r
  let (sigTlv, _) ← readTlv E "signature" r
  let (_, sigAlg) ← readAny E "signatureAlgorithm not SEQUENCE" sigAlgTlv
  let algReader ← openReader E "signatureAlgorithm body" sigAlg
  let (oidTlv, _) ← readTlv E "signatureAlgorithm OID missing" algReader
  let (_, oid) ← readAny E "signatureAlgorithm OID malformed" oidTlv
  require "signatureAlgorithm OID malformed" (Oid.wellFormed oid)
  let (_, sig) ← readAny E "signature not a TLV" sigTlv
  -- the leading octet counts the unused bits
  require "signature BIT STRING missing" (!sig.isEmpty)
  parseTbs E tbsDer der oid sig.tail

/-! ## §6. Extensions -/

/-- `ExtensionMeta`. -/
structure ExtensionMeta where
  value : Bytes
  critical : Bool
  deriving Repr, DecidableEq

/-- One turn of the loop in `find_extension_with_meta`: `none` is the early return of
    `None`, `some none` is `continue`. -/
def extensionEntry (oidValue : Bytes) (item : Option Bytes) :
    Option (Option ExtensionMeta) := do
  let (tag, body) ← E.anyFromDer (← item)
  if tag ≠ 0x30 then return none
  guard (E.sliceReader body)
  let (oidTlv, fields) ← E.tlvBytes body
  let (oidTag, oid) ← E.anyFromDer oidTlv
  if oidTag ≠ 0x06 ∨ oid ≠ oidValue then return none
  let (nextTlv, fields) ← E.tlvBytes fields
  let (nextTag, next) ← E.anyFromDer nextTlv
  if nextTag = 0x01 then
    let critical := match next with
      | [] => false
      | b :: _ => b != 0
    let (valueTlv, _) ← E.tlvBytes fields
    let (valueTag, value) ← E.anyFromDer valueTlv
    guard (valueTag = 0x04)
    return some ⟨value, critical⟩
  else
    guard (nextTag = 0x04)
    return some ⟨next, false⟩

/-- The loop of `find_extension_with_meta`. -/
def findExtensionLoop (oidValue : Bytes) : List (Option Bytes) → Option ExtensionMeta
  | [] => none
  | item :: rest =>
    match extensionEntry E oidValue item with
    | none => none
    | some none => findExtensionLoop oidValue rest
    | some (some found) => some found

/-- `find_extension_with_meta`. -/
def findExtensionWithMeta (extensions oidValue : Bytes) : Option ExtensionMeta :=
  if E.sliceReader extensions then findExtensionLoop E oidValue (elements E extensions)
  else none

/-! ## §7. Signatures -/

/-- `SignatureAlgorithm`. -/
inductive SignatureAlgorithm where
  | rsa (hash : HashAlg)
  | ecdsa (hash : HashAlg)
  | other
  deriving Repr, DecidableEq

/-- `SignatureAlgorithm::from_oid`. -/
def SignatureAlgorithm.fromOid (oid : Bytes) : SignatureAlgorithm :=
  if oid = Oid.sha256WithRsa then .rsa .sha256
  else if oid = Oid.sha384WithRsa then .rsa .sha384
  else if oid = Oid.sha512WithRsa then .rsa .sha512
  else if oid = Oid.ecdsaWithSha256 then .ecdsa .sha256
  else if oid = Oid.ecdsaWithSha384 then .ecdsa .sha384
  else if oid = Oid.ecdsaWithSha512 then .ecdsa .sha512
  else .other

/-- `VerifyError`; the inner errors by their text. -/
inductive VerifyError where
  | unsupported
  | badIssuerKey
  | rsa (e : String)
  | ecdsa (e : String)
  deriving Repr, DecidableEq

/-- `Display` of `VerifyError`. -/
def VerifyError.display : VerifyError → String
  | .unsupported => "unsupported signature algorithm: unrecognised"
  | .badIssuerKey => "issuer SPKI shape doesn't match the signature alg"
  | .rsa e => "RSA verify: " ++ e
  | .ecdsa e => "ECDSA verify: " ++ e

/-- `verify_tbs_signature`. -/
def verifyTbsSignature (tbsDer signatureAlgOid signatureBits issuerSpkiDer : Bytes) :
    Except VerifyError Unit :=
  match SignatureAlgorithm.fromOid signatureAlgOid with
  | .rsa hash =>
    match E.extractRsaPublicKey issuerSpkiDer with
    | none => .error .badIssuerKey
    | some key => (E.verifyPkcs1v15 hash key tbsDer signatureBits).mapError .rsa
  | .ecdsa hash =>
    match E.extractEcPubkey issuerSpkiDer with
    | none => .error .badIssuerKey
    | some key =>
      (E.verifyPrehashed key signatureBits (E.sha2 hash tbsDer)).mapError .ecdsa
  | .other => .error .unsupported

/-- `Certificate::verify_signed_by`. -/
def Certificate.verifySignedBy (cert issuer : Certificate) : Except VerifyError Unit :=
  verifyTbsSignature E cert.tbsDer cert.signatureAlgOid cert.signatureBits issuer.spki.der

/-! ## §8. What a parsed certificate keeps -/

theorem parseTbs_fields {tbsDer raw oid bits : Bytes} {cert : Certificate}
    (h : parseTbs E tbsDer raw oid bits = .ok cert) :
    cert.rawDer = raw ∧ cert.tbsDer = tbsDer ∧ cert.signatureAlgOid = oid ∧
      cert.signatureBits = bits := by
  simp only [parseTbs, bind, Except.bind] at h
  repeat' (split at h)
  all_goals first
    | exact absurd h (by simp)
    | (simp only [pure, Except.pure, Except.ok.injEq] at h; subst h; exact ⟨rfl, rfl, rfl, rfl⟩)

/-- **A parsed certificate keeps its bytes**: comparing `raw_der` is comparing inputs. -/
theorem fromDer_rawDer {der : Bytes} {cert : Certificate}
    (h : Certificate.fromDer E der = .ok cert) : cert.rawDer = der := by
  simp only [Certificate.fromDer, bind, Except.bind] at h
  repeat' (split at h)
  all_goals first
    | exact absurd h (by simp)
    | exact (parseTbs_fields E h).1

/-! ## §9. An instance to evaluate with

The element reader is `BerTlvAny.parse`, and the calendar, the key decoder and the
digest and signature tables are concrete.  Fixed inputs are evaluated over it. -/

/-- The `width` low octets of a number, big-endian. -/
def octets (width n : Nat) : Bytes :=
  (List.range width).map fun i => UInt8.ofNat (n / 256 ^ (width - 1 - i) % 256)

/-- Days from 1970-01-01 to a civil date, counting years from March. -/
def civilDays (year month day : Nat) : Nat :=
  let y := if month ≤ 2 then year - 1 else year
  let doy := (153 * ((month + 9) % 12) + 2) / 5 + day - 1
  y * 365 + y / 4 - y / 100 + y / 400 + doy - 719468

/-- Value of a string of ASCII digits. -/
def digitsValue (ds : Bytes) : Nat := ds.foldl (fun acc d => acc * 10 + (d.toNat - 48)) 0

/-- `YYYYMMDDHHMMSS` as whole seconds. -/
def civilSeconds (ds : Bytes) : Nat :=
  let field i n := digitsValue ((ds.drop i).take n)
  ((civilDays (field 0 4) (field 4 2) (field 6 2) * 24 + field 8 2) * 60 + field 10 2) * 60
    + field 12 2

/-- An element that fills its input. -/
def wholeElement (bytes : Bytes) : Option BerTlvAny :=
  match BerTlvAny.parse bytes with
  | .ok t => if t.size = bytes.length then some t else none
  | .error _ => none

/-- GeneralizedTime, or UTCTime with its century. -/
def decodeTime (der : Bytes) : Option DateTime := do
  let t ← wholeElement der
  if t.tag = 0x18 then return civilSeconds t.value
  else if t.tag = 0x17 then
    return civilSeconds
      ((if digitsValue (t.value.take 2) < 50 then [50, 48] else [49, 57]) ++ t.value)
  else none

/-- The two times of a Validity. -/
def decodeValidity (der : Bytes) : Option (DateTime × DateTime) := do
  match children (← wholeElement der).value with
  | [.ok a, .ok b] =>
    let body := (← wholeElement der).value
    return (← decodeTime (body.take a.size), ← decodeTime ((body.drop a.size).take b.size))
  | _ => none

/-- SubjectPublicKeyInfo. -/
def decodeSpki (der : Bytes) : Option SpkiInfo := do
  match children (← wholeElement der).value with
  | [.ok algorithm, .ok key] =>
    match children algorithm.value with
    | [.ok oid] => return ⟨oid.value, none, key.value.tail⟩
    | [.ok oid, .ok params] => return ⟨oid.value, some (params.tag, params.value), key.value.tail⟩
    | _ => none
  | _ => none

/-- The first entry for `key`, or the empty string. -/
def tableLookup (table : List (Bytes × Bytes)) (key : Bytes) : Bytes :=
  ((table.find? fun e => e.1 == key).map Prod.snd).getD []

/-- The instance: digest tables and the (point, signature, digest) triples that verify. -/
def Externals.sample (sha1 sha2 : List (Bytes × Bytes)) (signed : List (Bytes × Bytes × Bytes)) :
    Externals where
  anyFromDer bytes := (wholeElement bytes).map fun t => (t.tag, t.value)
  sliceReader _ := true
  tlvBytes bytes :=
    match BerTlvAny.parse bytes with
    | .ok t => some (bytes.take t.size, bytes.drop t.size)
    | .error _ => none
  generalizedTime := decodeTime
  validity := decodeValidity
  spkiInfo := decodeSpki
  decodeOid any := if any.1 = 0x06 ∧ Oid.wellFormed any.2 then some any.2 else none
  sha1 := tableLookup sha1
  sha2 _ := tableLookup sha2
  extractRsaPublicKey _ := none
  verifyPkcs1v15 _ _ _ _ := .error "bad signature"
  extractEcPubkey der := do
    let info ← decodeSpki der
    let (_, curve) ← info.parameters
    return ⟨curve, info.subjectPublicKey⟩
  verifyPrehashed key sig digest :=
    if (key.point, sig, digest) ∈ signed then .ok () else .error "bad signature"
  showDateTime t := toString t
  tlvBytes_split := by
    intro bytes element rest h
    split at h
    next t ht =>
      obtain ⟨rfl, rfl⟩ : bytes.take t.size = element ∧ bytes.drop t.size = rest := by
        simpa using h
      have hs := parse_size_le ht
      refine ⟨by simp, ?_⟩
      rw [← List.length_pos_iff, List.length_take]
      omega
    · exact absurd h (by simp)

end RefineId
