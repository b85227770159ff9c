/-
  RefineId.CrlLookup — looking a serial up in a revocation list.
  ════════════════════════════════════════════════════════════════════════════

  `crates/refineid-lib-core/src/crl.rs`: `Crl::parse` keeps the octets of
  `revokedCertificates` as they are, and `RevokedIter` decodes one entry after the other
  while `find_serial` looks for its serial.  An entry that does not decode ends the
  iteration, so the entries behind it are never looked at.

  Main results:
    • `lookup_misses_iff` : what the lookup does not find although the list has it.
    • `failsClosed_iff`   : a `Good` verdict means that no entry carries the serial, exactly
                            if the first entry that does has no undecodable one before it.
-/
import RefineId.CheckResponse
import RefineId.Revocation

namespace RefineId

open Ocsp

namespace Revocation

/-! ## §1. What the external crates provide -/

/-- `x509_cert::crl::RevokedCert`; an extension is its identifier and its value. -/
structure RevokedCert where
  serialNumber : Bytes
  revocationDate : DateTime
  crlEntryExtensions : Option (List (Bytes × Bytes))
  deriving Repr, DecidableEq

/-- The decoders of `x509-cert`. -/
structure CrlDecoders where
  /-- `x509_cert::time::Time::from_der`. -/
  time : Bytes → Option DateTime
  /-- `RevokedCert::<Rfc5280>::from_der`. -/
  revokedCert : Bytes → Option RevokedCert

variable (E : Externals) (D : CrlDecoders)

/-! ## §2. The list -/

/-- `OID_CRL_REASONS`. -/
def oidCrlReasons : Bytes := Oid.dotted [2, 5, 29, 21]

/-- `Crl`: the octets of the revoked entries are kept unread. -/
structure ParsedCrl where
  rawDer : Bytes
  tbsDer : Bytes
  issuer : Bytes
  thisUpdate : DateTime
  nextUpdate : Option DateTime
  revokedSeqValue : Option Bytes
  signatureAlgOid : Bytes
  signatureBits : Bytes
  deriving Repr, DecidableEq

/-- `Time::from_der(der).map_err(|_| X509Error::InvalidTime)`. -/
def readTime (der : Bytes) : Except X509Error DateTime :=
  match D.time der with
  | some t => .ok t
  | none => .error .invalidTime

/-- The optional fields behind `thisUpdate`; the last one of a kind counts. -/
def crlFields : List (Option Bytes) → Option DateTime → Option Bytes →
    Except X509Error (Option DateTime × Option Bytes)
  | [], nextUpdate, revoked => .ok (nextUpdate, revoked)
  | none :: _, _, _ => .error (.unexpectedStructure "tbsCertList trailing field")
  | some field :: rest, nextUpdate, revoked => do
    let (tag, value) ← readAny E "tbsCertList trailing field" field
    if tag = 0x17 ∨ tag = 0x18 then crlFields rest (some (← readTime D field)) revoked
    else if tag = 0x30 then crlFields rest nextUpdate (some value)
    -- crlExtensions are not interpreted
    else if tag = 0xA0 then crlFields rest nextUpdate revoked
    else .error (.unexpectedStructure "unexpected CRL field")

/-- `parse_tbs_cert_list`. -/
def parseTbsCertList (tbsDer raw signatureAlgOid signatureBits : Bytes) :
    Except X509Error ParsedCrl := do
  let (tag, body) ← readAny E "tbsCertList not a TLV" tbsDer
  require "tbsCertList not SEQUENCE" (tag = 0x30)
  let r ← openReader E "tbsCertList body" body
  let (firstTlv, r) ← readTlv E "tbsCertList version/signature" r
  let (firstTag, _) ← readAny E "tbsCertList version/signature" firstTlv
  -- with a version before it, the signature is still to come
  let r ← if firstTag = 0x02 then (readTlv E "tbsCertList signature" r).map Prod.snd else pure r
  let (issuer, r) ← readTlv E "tbsCertList issuer" r
  let (timeTlv, r) ← readTlv E "tbsCertList thisUpdate" r
  let thisUpdate ← readTime D timeTlv
  let (nextUpdate, revokedSeqValue) ← crlFields E D (elements E r) none none
  return { rawDer := raw, tbsDer, issuer, thisUpdate, nextUpdate, revokedSeqValue,
           signatureAlgOid, signatureBits }

/-- `Crl::parse`. -/
def ParsedCrl.parse (der : Bytes) : Except X509Error ParsedCrl := do
  let (tag, body) ← readAny E "CRL not a TLV" der
  require "CRL not SEQUENCE" (tag = 0x30)
  let r ← openReader E "CRL body" body
  let (tbsDer, r) ← readTlv E "tbsCertList" r
  let (sigAlgTlv, r) ← readTlv E "CRL signatureAlgorithm" r
  let (_, sigAlg) ← readAny E "CRL signatureAlgorithm" sigAlgTlv
  let algReader ← openReader E "CRL signatureAlgorithm body" sigAlg
  let (oidTlv, _) ← readTlv E "CRL signatureAlgorithm OID" algReader
  let (oidTag, signatureAlgOid) ← readAny E "CRL signatureAlgorithm OID" oidTlv
  require "CRL signatureAlgorithm OID" (oidTag = 0x06)
  let (sigTlv, _) ← readTlv E "CRL signature" r
  let (sigTag, sig) ← readAny E "CRL signature" sigTlv
  require "CRL signature not BIT STRING" (sigTag = 0x03)
  require "CRL signature BIT STRING empty" (!sig.isEmpty)
  parseTbsCertList E D tbsDer der signatureAlgOid sig.tail

/-! ## §3. The entries -/

/-- `RevokedIter::find_reason_code`. -/
def findReasonCode (extensions : List (Bytes × Bytes)) : Option CrlReason := do
  let (_, value) ← extensions.find? fun extension => extension.1 = oidCrlReasons
  let (tag, inner) ← E.anyFromDer value
  if tag ≠ 0x0A then none
  else match inner with
    | [code] => CrlReason.fromCode code
    | _ => none

/-- The entry `RevokedIter::next` gives for a decoded one. -/
def revokedEntry (revoked : RevokedCert) : RevokedEntry where
  serial := revoked.serialNumber
  revocationDate := revoked.revocationDate
  reason := revoked.crlEntryExtensions.bind (findReasonCode E)

/-- The elements up to a failed read. -/
def readElements : List (Option Bytes) → List Bytes
  | some element :: rest => element :: readElements rest
  | none :: _ | [] => []

/-- **The elements of `revokedCertificates`**, whether they decode or not. -/
def ParsedCrl.listed (crl : ParsedCrl) : List Bytes :=
  match crl.revokedSeqValue with
  | none => []
  | some body => readElements (elements E body)

/-- `RevokedIter` run to its end: an entry that does not decode ends it. -/
def revokedIter : List Bytes → List RevokedEntry
  | [] => []
  | element :: rest =>
    match D.revokedCert element with
    | none => []
    | some revoked => revokedEntry E revoked :: revokedIter rest

/-- `SliceReader::new(body).ok()` of `Crl::entries`. -/
def ParsedCrl.opens (crl : ParsedCrl) : Bool :=
  match crl.revokedSeqValue with
  | none => false
  | some body => E.sliceReader body

/-- `Crl::entries`, and with them the list as the verdict reads it. -/
def ParsedCrl.toCrl (crl : ParsedCrl) : Crl where
  tbsDer := crl.tbsDer
  issuer := crl.issuer
  thisUpdate := crl.thisUpdate
  nextUpdate := crl.nextUpdate
  entries := if crl.opens E then revokedIter E D (crl.listed E) else []
  signatureAlgOid := crl.signatureAlgOid
  signatureBits := crl.signatureBits

/-- `VerifiedCrl`, before its entries are read. -/
structure VerifiedList where
  list : ParsedCrl
  signerSpki : Bytes
  verified : verifyTbsSignature E list.tbsDer list.signatureAlgOid list.signatureBits signerSpki
    = .ok ()

/-- `VerifiedCrl::verify`. -/
def VerifiedList.verify (list : ParsedCrl) (signerSpki : SpkiDer) :
    Except VerifyError (VerifiedList E) :=
  match h : verifyTbsSignature E list.tbsDer list.signatureAlgOid list.signatureBits
    signerSpki.der with
  | .ok () => .ok ⟨list, signerSpki.der, h⟩
  | .error e => .error e

variable {E} in
/-- The verified list as the verdict reads it. -/
def VerifiedList.toVerifiedCrl (v : VerifiedList E) : VerifiedCrl E :=
  ⟨v.list.toCrl E D, v.signerSpki, v.verified⟩

/-! ## §4. What the lookup misses -/

/-- The element is a well-formed entry with this serial. -/
def carries (serial element : Bytes) : Bool :=
  (D.revokedCert element).any fun revoked => revoked.serialNumber == serial

/-- The first entry with this serial has one before it that does not decode. -/
def Shadowed (serial : Bytes) (listed : List Bytes) : Prop :=
  ∃ front hidden back, listed = front ++ hidden :: back ∧ carries D serial hidden = true ∧
    (∀ element ∈ front, carries D serial element = false) ∧
    ∃ bad ∈ front, D.revokedCert bad = none

variable {D}

theorem carries_of_none {serial element : Bytes} (h : D.revokedCert element = none) :
    carries D serial element = false := by
  unfold carries
  rw [h]
  rfl

theorem carries_of_some {serial element : Bytes} {revoked : RevokedCert}
    (h : D.revokedCert element = some revoked) :
    carries D serial element = (revoked.serialNumber == serial) := by
  unfold carries
  rw [h]
  rfl

/-- The first entry with a serial, if there is one. -/
theorem exists_first {serial : Bytes} {listed : List Bytes}
    (h : ∃ element ∈ listed, carries D serial element = true) :
    ∃ front hidden back, listed = front ++ hidden :: back ∧ carries D serial hidden = true ∧
      ∀ element ∈ front, carries D serial element = false := by
  obtain ⟨hidden, hfind⟩ := Option.isSome_iff_exists.mp (List.find?_isSome.mpr h)
  obtain ⟨hcarries, front, back, hlisted, hfront⟩ := List.find?_eq_some_iff_append.mp hfind
  refine ⟨front, hidden, back, hlisted, hcarries, ?_⟩
  intro element helement
  simpa using hfront element helement

/-- An entry in front that decodes, with another serial, hides nothing. -/
theorem shadowed_cons_of_other {serial element : Bytes} {rest : List Bytes} {revoked : RevokedCert}
    (hdecode : D.revokedCert element = some revoked)
    (hother : (revoked.serialNumber == serial) = false) :
    Shadowed D serial (element :: rest) ↔ Shadowed D serial rest := by
  have hcarries := (carries_of_some hdecode).trans hother
  constructor
  · intro h
    obtain ⟨front, hidden, back, hlisted, hhidden, hfront, bad, hbad, hundecoded⟩ := h
    cases front with
    | nil => cases hbad
    | cons first front =>
      obtain ⟨rfl, rfl⟩ := List.cons.inj hlisted
      refine ⟨front, hidden, back, rfl, hhidden,
        fun e he => hfront e (List.mem_cons_of_mem _ he), bad, ?_, hundecoded⟩
      cases hbad with
      | head =>
        rw [hdecode] at hundecoded
        cases hundecoded
      | tail _ hbad => exact hbad
  · intro h
    obtain ⟨front, hidden, back, rfl, hhidden, hfront, bad, hbad, hundecoded⟩ := h
    refine ⟨element :: front, hidden, back, rfl, hhidden, ?_, bad, List.mem_cons_of_mem _ hbad,
      hundecoded⟩
    intro e he
    cases he with
    | head => exact hcarries
    | tail _ he => exact hfront e he

/-- **What the lookup misses**: it finds nothing although an entry carries the serial,
    exactly if the first such entry stands behind one that does not decode. -/
theorem lookup_misses_iff (serial : Bytes) (listed : List Bytes) :
    ((revokedIter E D listed).find? (fun e => e.serial == serial) = none ∧
      ∃ element ∈ listed, carries D serial element = true) ↔ Shadowed D serial listed := by
  induction listed with
  | nil =>
    constructor
    · intro h
      obtain ⟨-, element, helement, -⟩ := h
      cases helement
    · intro h
      obtain ⟨front, hidden, back, hlisted, -⟩ := h
      exact absurd hlisted (by simp)
  | cons element rest ih =>
    unfold revokedIter
    cases hdecode : D.revokedCert element with
    | none =>
      -- the iteration ends here, whatever follows
      constructor
      · intro h
        obtain ⟨front, hidden, back, hlisted, hhidden, hfront⟩ := exists_first h.2
        cases front with
        | nil =>
          obtain ⟨rfl, -⟩ := List.cons.inj hlisted
          rw [carries_of_none hdecode] at hhidden
          cases hhidden
        | cons first front =>
          obtain ⟨rfl, -⟩ := List.cons.inj hlisted
          exact ⟨element :: front, hidden, back, hlisted, hhidden, hfront, element,
            List.mem_cons_self, hdecode⟩
      · intro h
        obtain ⟨front, hidden, back, hlisted, hhidden, -⟩ := h
        exact ⟨rfl, hidden, by rw [hlisted]; simp, hhidden⟩
    | some revoked =>
      dsimp only
      cases hsame : (revoked.serialNumber == serial) with
      | true =>
        rw [List.find?_cons_of_pos (by exact hsame)]
        constructor
        · intro h
          cases h.1
        · -- the entry in front carries the serial, so nothing stands before the first
          intro h
          obtain ⟨front, hidden, back, hlisted, -, hfront, bad, hbad, -⟩ := h
          cases front with
          | nil => cases hbad
          | cons first front =>
            obtain ⟨rfl, -⟩ := List.cons.inj hlisted
            have hnot := hfront element List.mem_cons_self
            rw [carries_of_some hdecode, hsame] at hnot
            cases hnot
      | false =>
        rw [List.find?_cons_of_neg (by rw [show (revokedEntry E revoked).serial
          = revoked.serialNumber from rfl, hsame]; decide), shadowed_cons_of_other hdecode hsame, ← ih]
        refine and_congr_right fun _ => ?_
        rw [List.exists_mem_cons_iff, carries_of_some hdecode, hsame]
        simp

/-! ## §5. Failing closed -/

section
variable {E}

/-- **Failing closed**: a `Good` verdict means that no entry of the list carries the serial,
    the undecodable ones and those behind them included. -/
def FailsClosed (D : CrlDecoders) (cert : Certificate) (v : VerifiedList E) (now : DateTime) :
    Prop :=
  checkAgainstCrl cert (v.toVerifiedCrl D) now = .good →
    ∀ element ∈ v.list.listed E, carries D cert.serialDer element = false

/-- A list of the issuer's that is still current, and in which the first entry with the
    serial stands behind one that does not decode, or the reader does not open. -/
def HidesSerial (D : CrlDecoders) (cert : Certificate) (v : VerifiedList E) (now : DateTime) :
    Prop :=
  v.list.issuer = cert.issuer ∧ isStale v.list.nextUpdate now = false ∧
    (Shadowed D cert.serialDer (v.list.listed E) ∨
      (v.list.opens E = false ∧
        ∃ element ∈ v.list.listed E, carries D cert.serialDer element = true))

/-- A list whose signature verifies is wrapped as it is. -/
theorem exists_verify {list : ParsedCrl} {signerSpki : SpkiDer}
    (h : verifyTbsSignature E list.tbsDer list.signatureAlgOid list.signatureBits signerSpki.der
      = .ok ()) :
    ∃ v, VerifiedList.verify E list signerSpki = .ok v ∧ v.list = list := by
  refine ⟨⟨list, signerSpki.der, h⟩, ?_, rfl⟩
  unfold VerifiedList.verify
  split
  · rfl
  next e he => exact absurd (h.symm.trans he) nofun

/-- When the verdict is `Good`. -/
theorem checkAgainstCrl_good_iff {cert : Certificate} {verified : VerifiedCrl E} {now : DateTime} :
    checkAgainstCrl cert verified now = .good ↔
      verified.crl.issuer = cert.issuer ∧ isStale verified.crl.nextUpdate now = false ∧
        verified.crl.entries.find? (fun e => e.serial == cert.serialDer) = none := by
  unfold checkAgainstCrl
  by_cases hissuer : verified.crl.issuer = cert.issuer
  · rw [if_neg (by simpa using hissuer)]
    cases hstale : isStale verified.crl.nextUpdate now with
    | true => simp
    | false =>
      cases hfind : verified.crl.entries.find? (fun e => e.serial == cert.serialDer) with
      | none => simp [hissuer]
      | some entry => simp
  · rw [if_pos hissuer]
    simp [hissuer]

/-- A current list of the issuer's in which the serial is not found gives `Good`. -/
theorem checkAgainstCrl_of_missed {cert : Certificate} {v : VerifiedList E} {now : DateTime}
    (hissuer : v.list.issuer = cert.issuer) (hfresh : isStale v.list.nextUpdate now = false)
    (hmissed : (v.list.toCrl E D).entries.find? (fun e => e.serial == cert.serialDer) = none) :
    checkAgainstCrl cert (v.toVerifiedCrl D) now = .good :=
  checkAgainstCrl_good_iff.mpr ⟨hissuer, hfresh, hmissed⟩

/-- What the lookup misses in a list, whether its reader opens or not. -/
theorem toCrl_misses_iff (list : ParsedCrl) (serial : Bytes) :
    ((list.toCrl E D).entries.find? (fun e => e.serial == serial) = none ∧
      ∃ element ∈ list.listed E, carries D serial element = true) ↔
    (Shadowed D serial (list.listed E) ∨
      (list.opens E = false ∧ ∃ element ∈ list.listed E, carries D serial element = true)) := by
  unfold ParsedCrl.toCrl
  dsimp only
  cases hopens : list.opens E with
  | true =>
    rw [if_pos rfl, lookup_misses_iff]
    simp
  | false =>
    rw [if_neg (by decide), List.find?_nil]
    constructor
    · intro h
      exact .inr ⟨rfl, h.2⟩
    · intro h
      refine ⟨rfl, ?_⟩
      rcases h with hshadowed | hlisted
      · exact ((lookup_misses_iff E serial (list.listed E)).mpr hshadowed).2
      · exact hlisted.2

end

/-! ## §6. A list with an over-long serial

The CA of `issuerDer` lists a certificate whose serial takes 24 octets, more than `x509-cert`
reads, and behind it the certificate 0x42. -/

def longSerialCrl : Bytes :=
  octets 32 0x3081d4307d020101300a06082a8648ce3d040302300d310b300906035504030c ++
  octets 32 0x024341170d3236303630313030303030305a170d323630373031303030303030 ++
  octets 32 0x5a303f3029021801010101010101010101010101010101010101010101010117 ++
  octets 32 0x0d3236303430313030303030305a3012020142170d3236303530313030303030 ++
  octets 32 0x305a300a06082a8648ce3d04030203470030440220799a74200d1d7155e8b27b ++
  octets 32 0x090382682aff52da4bd0f77342605f2049cf2d62d902204a58de4307e77c790b ++
  octets 23 0x43d6585e9bf24f638293eaf2655bb3aec125c1c6a184ec

/-- The SHA-256 digest of the signed part, and the CA's signature over it: nothing else
    verifies. -/
def longSerialExternals : Externals :=
  Externals.sample []
    [((longSerialCrl.drop 3).take 127,
      octets 32 0x06309645fa79e76292f4b23b87ed744490ee58c2e46e7c23d39c5f4840d79c58)]
    [(octets 33 0x04ce870e72b21f4c61a4d9fb277fd2dcf17ccdc61248d79b1dda92f99f60d1e8d0 ++
        octets 32 0xba37ad1d290bdf3e79beb39e05d8b770665d533396d5c10f262a41b7c6cd140b,
      octets 35 0x30440220799a74200d1d7155e8b27b090382682aff52da4bd0f77342605f2049cf2d62 ++
        octets 35 0xd902204a58de4307e77c790b43d6585e9bf24f638293eaf2655bb3aec125c1c6a184ec,
      octets 32 0x06309645fa79e76292f4b23b87ed744490ee58c2e46e7c23d39c5f4840d79c58)]

/-- Entries of a serial of at most 21 octets and a time. -/
def sampleDecoders : CrlDecoders where
  time := decodeTime
  revokedCert der := do
    let t ← wholeElement der
    match Ber.children t.value with
    | [.ok serial, .ok time] =>
      if serial.tag = 0x02 ∧ serial.value.length ≤ 21 then
        return ⟨serial.value, ← decodeTime ((t.value.drop serial.size).take time.size), none⟩
      else none
    | _ => none

/-- The list in `der`, or one with empty fields. -/
def crlOf (E : Externals) (D : CrlDecoders) (der : Bytes) : ParsedCrl :=
  match ParsedCrl.parse E D der with
  | .ok list => list
  | .error _ => ⟨[], [], [], 0, none, none, [], []⟩

end Revocation

end RefineId
