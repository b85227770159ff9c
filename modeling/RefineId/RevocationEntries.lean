/-
  RefineId.RevocationEntries — which entry decides a verdict.
  ════════════════════════════════════════════════════════════════════════════

  An OCSP response answers for any number of certificates.  The certificate's own entry is
  the one that carries its serial and the hash of its issuer's name; `revocation.rs` looks
  for the serial alone and takes the first entry that has it, where the document signer's
  `check_response` compares the whole CertID.

  Main results:
    • `find?_own_of_filter`   : the own entry does not depend on other entries.
    • `ownEntryDecides_iff`   : when the evidence kept is that of the own entry.
-/
import RefineId.CheckResponse
import RefineId.Revocation

namespace RefineId

open Ocsp

namespace Revocation

variable {E : Externals}

/-! ## §1. The certificate's own entry -/

/-- The hash of a name under the algorithm a CertID names. -/
def nameHash (E : Externals) (hashAlgorithmOid name : Bytes) : Option Bytes :=
  if hashAlgorithmOid = Oid.sha1 then some (E.sha1 name)
  else if hashAlgorithmOid = Oid.sha256 then some (E.sha2 .sha256 name)
  else if hashAlgorithmOid = Oid.sha384 then some (E.sha2 .sha384 name)
  else if hashAlgorithmOid = Oid.sha512 then some (E.sha2 .sha512 name)
  else none

/-- The entry carries the serial of the certificate. -/
def hasSerial (cert : Certificate) (entry : SingleResponse) : Bool :=
  entry.certId.serial == cert.serialDer

/-- **The entry is the certificate's own**: its serial and the hash of its issuer's name. -/
def isOwn (E : Externals) (cert : Certificate) (entry : SingleResponse) : Bool :=
  hasSerial cert entry &&
    nameHash E entry.certId.hashAlgorithmOid cert.issuer == some entry.certId.issuerNameHash

/-- The entry is another issuer's, for the same serial. -/
def isForeign (E : Externals) (cert : Certificate) (entry : SingleResponse) : Bool :=
  hasSerial cert entry && !isOwn E cert entry

/-- What an entry says at a time. -/
def verdict (entry : SingleResponse) (now : DateTime) : RevocationStatus :=
  if isStale entry.nextUpdate now then .stale
  else match entry.status with
    | .good => .good
    | .revoked revokedAt reason => .revoked revokedAt reason
    | .unknown => .unknown

/-- The evidence an entry gives, or the lack of one. -/
def evidenceOf (entry : Option SingleResponse) (now : DateTime) : RevocationEvidence where
  status := match entry with
    | none => .inapplicable .ocspNoEntryForSerial
    | some entry => verdict entry now
  source := .ocsp
  checkedAt := now
  validUntil := entry.bind (·.nextUpdate)

/-- **The own entry decides**: the verdict and the evidence kept are those of the first
    entry of the certificate's own, and would be the same without the other issuers'
    entries. -/
structure OwnEntryDecides (cert : Certificate) (response : VerifiedOcspResponse E)
    (now : DateTime) : Prop where
  status_own : checkAgainstOcspResponse cert response now =
    (evidenceOf (response.singleResponses.find? (isOwn E cert)) now).status
  evidence_own : RevocationEvidence.fromOcsp cert response now =
    evidenceOf (response.singleResponses.find? (isOwn E cert)) now
  evidence_without : RevocationEvidence.fromOcsp cert response now =
    evidenceOf ((response.singleResponses.filter fun e => !isForeign E cert e).find?
      (hasSerial cert)) now

/-- The first entry with the serial is the certificate's own, or says the same as the first
    one that is: the same window, and the same status unless the window has passed. -/
def FirstIsOwn (cert : Certificate) (response : VerifiedOcspResponse E) (now : DateTime) : Prop :=
  ∀ first, response.singleResponses.find? (hasSerial cert) = some first →
    isOwn E cert first = true ∨
      ∃ own, response.singleResponses.find? (isOwn E cert) = some own ∧
        own.nextUpdate = first.nextUpdate ∧
        (isStale first.nextUpdate now = true ∨ own.status = first.status)

/-! ## §2. What the code reports -/

theorem checkAgainstOcspResponse_eq (cert : Certificate) (response : VerifiedOcspResponse E)
    (now : DateTime) : checkAgainstOcspResponse cert response now =
      (evidenceOf (response.singleResponses.find? (hasSerial cert)) now).status := by
  unfold checkAgainstOcspResponse entryForSerial evidenceOf
  split <;> rename_i h
  · rw [show response.singleResponses.find? (hasSerial cert) = none from h]
  · rw [show response.singleResponses.find? (hasSerial cert) = some _ from h]
    rfl

theorem fromOcsp_eq (cert : Certificate) (response : VerifiedOcspResponse E) (now : DateTime) :
    RevocationEvidence.fromOcsp cert response now =
      evidenceOf (response.singleResponses.find? (hasSerial cert)) now := by
  unfold RevocationEvidence.fromOcsp
  rw [checkAgainstOcspResponse_eq]
  rfl

theorem hasSerial_of_isOwn {cert : Certificate} {entry : SingleResponse}
    (h : isOwn E cert entry = true) : hasSerial cert entry = true :=
  (Bool.and_eq_true_iff.mp h).1

/-- Without the other issuers' entries, the first with the serial is the first of its own. -/
theorem find?_own_of_filter (E : Externals) (cert : Certificate) (entries : List SingleResponse) :
    (entries.filter fun e => !isForeign E cert e).find? (hasSerial cert)
      = entries.find? (isOwn E cert) := by
  rw [List.find?_filter]
  congr 1
  funext entry
  unfold isForeign
  cases hown : isOwn E cert entry with
  | true => rw [hasSerial_of_isOwn hown]; rfl
  | false => cases hasSerial cert entry <;> rfl

/-- Equal verdicts of entries with one window. -/
theorem verdict_eq_iff {a b : SingleResponse} {now : DateTime} (h : a.nextUpdate = b.nextUpdate) :
    verdict a now = verdict b now ↔ isStale b.nextUpdate now = true ∨ a.status = b.status := by
  unfold verdict
  rw [h]
  by_cases hstale : isStale b.nextUpdate now = true
  · rw [if_pos hstale, if_pos hstale]
    exact ⟨fun _ => .inl hstale, fun _ => rfl⟩
  · rw [if_neg hstale, if_neg hstale]
    cases a.status <;> cases b.status <;> simp [hstale]

/-- No verdict of an entry is that of a missing one. -/
theorem verdict_ne_inapplicable (entry : SingleResponse) (now : DateTime)
    (reason : InapplicableReason) : verdict entry now ≠ .inapplicable reason := by
  unfold verdict
  split
  · nofun
  · cases entry.status <;> nofun

theorem evidenceOf_some_eq_iff {first : SingleResponse} {other : Option SingleResponse}
    {now : DateTime} : evidenceOf (some first) now = evidenceOf other now ↔
      ∃ own, other = some own ∧ own.nextUpdate = first.nextUpdate ∧
        (isStale first.nextUpdate now = true ∨ own.status = first.status) := by
  cases other with
  | none =>
    constructor
    · intro h
      exact absurd (congrArg RevocationEvidence.status h) (verdict_ne_inapplicable first now _)
    · intro hx
      obtain ⟨own, hown, -⟩ := hx
      cases hown
  | some own =>
    constructor
    · intro h
      have hwindow : own.nextUpdate = first.nextUpdate :=
        (congrArg RevocationEvidence.validUntil h).symm
      have hverdict : verdict own now = verdict first now :=
        (congrArg RevocationEvidence.status h).symm
      exact ⟨own, rfl, hwindow, (verdict_eq_iff hwindow).mp hverdict⟩
    · intro hx
      obtain ⟨own', hown, hwindow, hsame⟩ := hx
      injection hown with hown
      subst hown
      unfold evidenceOf
      rw [Option.bind_some, Option.bind_some, hwindow]
      dsimp only
      rw [(verdict_eq_iff hwindow).mpr hsame]

/-- Before the first entry of its own there is no entry with the serial, if the first with
    the serial is one. -/
theorem find?_own_of_first {cert : Certificate} {entries : List SingleResponse}
    {first : SingleResponse} (h : entries.find? (hasSerial cert) = some first)
    (hown : isOwn E cert first = true) : entries.find? (isOwn E cert) = some first := by
  rw [List.find?_eq_some_iff_append] at h ⊢
  obtain ⟨-, front, back, rfl, hfront⟩ := h
  refine ⟨hown, front, back, rfl, ?_⟩
  intro entry hentry
  have hserial := hfront entry hentry
  by_contra hother
  rw [Bool.not_eq_true', Bool.not_eq_false] at hother
  rw [hasSerial_of_isOwn hother] at hserial
  cases hserial

/-! ## §3. When the own entry decides -/

/-- **When the own entry decides**: exactly if the first entry with the serial is the
    certificate's own, or happens to say the same. -/
theorem ownEntryDecides_iff (cert : Certificate) (response : VerifiedOcspResponse E)
    (now : DateTime) : OwnEntryDecides cert response now ↔ FirstIsOwn cert response now := by
  constructor
  · intro h first hfirst
    have hevidence := h.evidence_own
    rw [fromOcsp_eq, hfirst, evidenceOf_some_eq_iff] at hevidence
    exact .inr hevidence
  · intro h
    have hevidence : RevocationEvidence.fromOcsp cert response now =
        evidenceOf (response.singleResponses.find? (isOwn E cert)) now := by
      rw [fromOcsp_eq]
      cases hfirst : response.singleResponses.find? (hasSerial cert) with
      | none =>
        -- no entry with the serial is none of its own
        have hnone : response.singleResponses.find? (isOwn E cert) = none := by
          rw [List.find?_eq_none] at hfirst ⊢
          intro entry hentry hown
          exact hfirst entry hentry (hasSerial_of_isOwn hown)
        rw [hnone]
      | some first =>
        rcases h first hfirst with hown | hsame
        · rw [find?_own_of_first hfirst hown]
        · rw [evidenceOf_some_eq_iff]
          exact hsame
    refine ⟨?_, hevidence, ?_⟩
    · exact congrArg RevocationEvidence.status hevidence
    · rw [find?_own_of_filter]
      exact hevidence

/-! ## §4. A response for two issuers

The CA of `issuerDer` answers for another CA too, whose certificate 0x42 is good; its own
certificate 0x42 was revoked on 1 May 2026. -/

def twoIssuersResponse : Bytes :=
  octets 32 0x3082015e30820105a2160414f885f44b74c5f670e8298e605d32e033006bb3ee ++
  octets 32 0x180f32303236303630313030303030305a3081d93062303a300906052b0e0302 ++
  octets 32 0x1a05000414e37d0bda982e559c7bb36bfff751d34902c3c2a1041480553abc24 ++
  octets 32 0x93f6b177e94d63c4bac80644d05cba0201428000180f32303236303630313030 ++
  octets 32 0x303030305aa011180f32303236303630323030303030305a3073303a30090605 ++
  octets 32 0x2b0e03021a05000414711d397671c9facf2242095925979a0698e46b110414f8 ++
  octets 32 0x85f44b74c5f670e8298e605d32e033006bb3ee020142a111180f323032363035 ++
  octets 32 0x30313030303030305a180f32303236303630313030303030305aa011180f3230 ++
  octets 32 0x3236303630323030303030305a300a06082a8648ce3d04030203470030440220 ++
  octets 32 0x4e3b08abb7fa16454e67e968eab34d782141be004e18d31ae8a2200fbcde7217 ++
  octets 32 0x02200ecb4c0d1aa2435681b1b6245b9b7240423d075ecc047f343685267f6726 ++
  octets 2 0xb7f5

/-- The SHA-1 digest of the CA's name, the SHA-256 digest of the response data, and the CA's
    signature over it: nothing else verifies. -/
def twoIssuersExternals : Externals :=
  Externals.sample
    [(octets 15 0x300d310b300906035504030c024341,
      octets 20 0x711d397671c9facf2242095925979a0698e46b11)]
    [((twoIssuersResponse.drop 4).take 265,
      octets 32 0xa53cf4209cac26549bfc0e3b7c7db3adc17942a6e6c663f22b7a026e030f2603)]
    [(octets 33 0x04ce870e72b21f4c61a4d9fb277fd2dcf17ccdc61248d79b1dda92f99f60d1e8d0 ++
        octets 32 0xba37ad1d290bdf3e79beb39e05d8b770665d533396d5c10f262a41b7c6cd140b,
      octets 35 0x304402204e3b08abb7fa16454e67e968eab34d782141be004e18d31ae8a2200fbcde72 ++
        octets 35 0x1702200ecb4c0d1aa2435681b1b6245b9b7240423d075ecc047f343685267f6726b7f5,
      octets 32 0xa53cf4209cac26549bfc0e3b7c7db3adc17942a6e6c663f22b7a026e030f2603)]

/-- The response in `der`, or one with empty fields. -/
def basicOf (E : Externals) (der : Bytes) : BasicOcspResponse :=
  match BasicOcspResponse.parse E der with
  | .ok basic => basic
  | .error _ => ⟨0, [], [], [], [], [], none⟩

/-- **Another issuer's entry decides**: the revoked certificate is reported good. -/
theorem foreign_entry_decides :
    ∃ cert issuer basic, ∃ response : VerifiedOcspResponse twoIssuersExternals,
      Certificate.fromDer twoIssuersExternals subjectDer = .ok cert ∧
      Certificate.fromDer twoIssuersExternals issuerDer = .ok issuer ∧
      BasicOcspResponse.parse twoIssuersExternals twoIssuersResponse = .ok basic ∧
      VerifiedOcspResponse.verify twoIssuersExternals basic issuer.spki = .ok response ∧
      checkAgainstOcspResponse cert response 1780272000 = .good ∧
      (evidenceOf (response.singleResponses.find? (isOwn twoIssuersExternals cert))
        1780272000).status = .revoked 1777593600 none ∧
      ¬ OwnEntryDecides cert response 1780272000 := by
  have hverified : (basicOf twoIssuersExternals twoIssuersResponse).verifySignature
      twoIssuersExternals (certificateOf twoIssuersExternals issuerDer).spki.der = .ok () := by
    decide +kernel
  have hgood : (evidenceOf ((basicOf twoIssuersExternals twoIssuersResponse).responses.find?
      (hasSerial (certificateOf twoIssuersExternals subjectDer))) 1780272000).status = .good := by
    decide +kernel
  have hrevoked : (evidenceOf ((basicOf twoIssuersExternals twoIssuersResponse).responses.find?
      (isOwn twoIssuersExternals (certificateOf twoIssuersExternals subjectDer)))
      1780272000).status = .revoked 1777593600 none := by
    decide +kernel
  obtain ⟨response, hresponse⟩ := verify_isOk_iff.mpr hverified
  rw [← (verify_eq_ok hresponse).1] at hgood hrevoked
  have hstatus := (checkAgainstOcspResponse_eq _ response 1780272000).trans hgood
  refine ⟨certificateOf twoIssuersExternals subjectDer,
    certificateOf twoIssuersExternals issuerDer, basicOf twoIssuersExternals twoIssuersResponse,
    response, by decide +kernel, by decide +kernel, by decide +kernel, hresponse, hstatus, hrevoked,
    ?_⟩
  intro h
  have hsame := h.status_own
  rw [hstatus] at hsame
  exact absurd (hsame.trans hrevoked) nofun

end Revocation

end RefineId
