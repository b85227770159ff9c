/-
  RefineId.CheckResponse — which OCSP answers the long-term material accepts.
  ════════════════════════════════════════════════════════════════════════════

  `crates/refineid-doc-sign/src/material.rs`, `check_response` and
  `check_ocsp_times`.  The response comes over plain HTTP, so every byte of it may be
  an attacker's.  `AnswerSound` states what an accepted answer is for: it is signed by
  the issuer or by a responder the issuer delegated to, it is about the certificate
  asked for, it is good and current, and its nonce is the one sent.

  The code looks for *some* embedded certificate whose key verifies the response and
  does not ask who issued that certificate.  `UnauthorisedResponder` is exactly the kind
  of response that gets through.

  Main results:
    • `checkResponse_ok_iff`        : the code's own acceptance condition, in full.
    • `checkOcspTimes_ok_iff`       : the freshness window.
    • `checkResponse_sound_iff`     : an accepted answer is sound exactly when it is not
                                      the work of an unauthorised embedded responder.
-/
import RefineId.Ocsp
import RefineId.PathExtensions

namespace RefineId

open Ocsp PathExtensions

/-! ## §1. Errors and policies of `material.rs` -/

/-- `MaterialError`. -/
inductive MaterialError where
  | noChain
  | noTrustAnchor
  | certificate (detail : String)
  | invalidIssuer (detail : String)
  | noIssuer (detail : String)
  | chainCycle
  | chainTooDeep
  | rng (detail : String)
  | revocation (detail : String)
  | revoked (detail : String)
  deriving Repr, DecidableEq

/-- `Display` of `MaterialError`. -/
def MaterialError.display : MaterialError → String
  | .noChain => "no certificate chain supplied"
  | .noTrustAnchor => "no approved trust anchor supplied"
  | .certificate detail => "certificate: " ++ detail
  | .invalidIssuer detail => "invalid issuer: " ++ detail
  | .noIssuer detail => "no issuer certificate: " ++ detail
  | .chainCycle => "certificate chain contains a cycle"
  | .chainTooDeep => "certificate chain exceeds the depth limit"
  | .rng detail => "no random nonce: " ++ detail
  | .revocation detail => "revocation: " ++ detail
  | .revoked detail => "certificate revoked: " ++ detail

/-- `NoncePolicy`. -/
inductive NoncePolicy where
  | requireEcho
  | allowMissingEcho
  deriving Repr, DecidableEq

/-- `MAX_CLOCK_SKEW`: five minutes. -/
def maxClockSkew : Nat := 5 * 60

/-- `MAX_OCSP_AGE_WITHOUT_NEXT_UPDATE`: 168 hours. -/
def maxOcspAgeWithoutNextUpdate : Nat := 168 * 3600

section
variable (E : Externals)

/-! ## §2. The freshness window -/

/-- `check_ocsp_times`, over the `unix_duration()` of each instant. -/
def checkOcspTimes (producedAt thisUpdate : Nat) (nextUpdate : Option Nat)
    (now : Nat) : Except MaterialError Unit :=
  if producedAt > now + maxClockSkew then
    .error (.revocation ("response producedAt " ++ E.showDateTime producedAt ++
      " is further ahead than clock skew explains"))
  else if thisUpdate > now + maxClockSkew then
    .error (.revocation "response thisUpdate is further ahead than clock skew explains")
  else if thisUpdate > producedAt + maxClockSkew then
    .error (.revocation "response thisUpdate is later than producedAt")
  else match nextUpdate with
    | some next =>
      if next ≤ thisUpdate then
        .error (.revocation "response nextUpdate is not after thisUpdate")
      else if now > next + maxClockSkew then
        .error (.revocation "response is past its nextUpdate")
      else .ok ()
    | none =>
      if now > thisUpdate + maxOcspAgeWithoutNextUpdate + maxClockSkew then
        .error (.revocation "response without nextUpdate is too old")
      else .ok ()

/-- The window an answer has to lie in: not dated ahead of the clock or of its own
    production by more than the skew, and not older than its `nextUpdate`, or than the
    fixed age when it names none. -/
structure InWindow (producedAt thisUpdate : Nat) (nextUpdate : Option Nat)
    (now : Nat) : Prop where
  produced : producedAt ≤ now + maxClockSkew
  started : thisUpdate ≤ now + maxClockSkew
  ordered : thisUpdate ≤ producedAt + maxClockSkew
  open_ : match nextUpdate with
    | some next => thisUpdate < next ∧ now ≤ next + maxClockSkew
    | none => now ≤ thisUpdate + maxOcspAgeWithoutNextUpdate + maxClockSkew

theorem checkOcspTimes_ok_iff {producedAt thisUpdate : Nat} {nextUpdate : Option Nat}
    {now : Nat} :
    checkOcspTimes E producedAt thisUpdate nextUpdate now = .ok () ↔
      InWindow producedAt thisUpdate nextUpdate now := by
  unfold checkOcspTimes
  constructor
  · intro h
    split at h
    · exact absurd h (by simp)
    split at h
    · exact absurd h (by simp)
    split at h
    · exact absurd h (by simp)
    refine ⟨by omega, by omega, by omega, ?_⟩
    cases nextUpdate with
    | none =>
      simp only at h ⊢
      split at h
      · exact absurd h (by simp)
      · omega
    | some next =>
      simp only at h ⊢
      split at h
      · exact absurd h (by simp)
      split at h
      · exact absurd h (by simp)
      · omega
  · intro hx
    obtain ⟨hp, hs, ho, hw⟩ := hx
    rw [if_neg (by omega), if_neg (by omega), if_neg (by omega)]
    cases nextUpdate with
    | none =>
      simp only at hw ⊢
      rw [if_neg (by omega)]
    | some next =>
      simp only at hw ⊢
      rw [if_neg (by omega), if_neg (by omega)]

/-! ## §3. The check -/

/-- The search for a key that verifies the response: the issuer's, then that of each
    embedded certificate that parses. -/
def responder (basic : BasicOcspResponse) (issuer : Certificate) :
    Option (VerifiedOcspResponse E) :=
  match VerifiedOcspResponse.verify E basic issuer.spki with
  | .ok v => some v
  | .error _ =>
    basic.embeddedCertDers.findSome? fun embedded =>
      match Certificate.fromDer E embedded with
      | .error _ => none
      | .ok cert => (VerifiedOcspResponse.verify E basic cert.spki).toOption

/-- The nonce match of `check_response`. -/
def checkNonce (policy : NoncePolicy) (echoed : Option Bytes) (nonce : Bytes) :
    Except MaterialError Unit :=
  match echoed with
  | some e =>
    if e = nonce then .ok () else .error (.revocation "nonce came back changed")
  | none =>
    if policy = .requireEcho then
      .error (.revocation
        "responder echoed no nonce, so the answer cannot be tied to this request")
    else .ok ()

/-- The status match of `check_response`. -/
def checkStatus : CertStatus → Except MaterialError Unit
  | .good => .ok ()
  | .revoked revokedAt _ => .error (.revoked ("revoked at " ++ E.showDateTime revokedAt))
  | .unknown => .error (.revocation "responder does not know this certificate")

/-- `check_response`. -/
def checkResponse (policy : NoncePolicy) (der : Bytes) (subject issuer : Certificate)
    (nameHash keyHash nonce : Bytes) (now : DateTime) : Except MaterialError Unit := do
  let response ← (OcspResponse.parse E der).mapError
    fun e => MaterialError.revocation ("parse: " ++ e.display)
  if response.status ≠ .successful then
    .error (.revocation ("responder returned " ++ response.status.debug))
  let basic ← match response.basic with
    | some basic => .ok basic
    | none => .error (.revocation "no basic response")
  let verified ← match responder E basic issuer with
    | some v => .ok v
    | none => .error (.revocation
        "signature verifies against neither the issuer nor an embedded responder")
  checkNonce policy basic.nonce nonce
  let answer ← match verified.singleResponses.find?
      fun entry => entry.certId.matchesRequest nameHash keyHash subject.serialDer with
    | some answer => .ok answer
    | none => .error (.revocation
        "response carries no SingleResponse for this request's CertID")
  checkOcspTimes E basic.producedAt answer.thisUpdate answer.nextUpdate now
  checkStatus E answer.status

/-! ## §4. What the code accepts -/

/-- `cert` is embedded in the response and its key verifies the response. -/
def EmbeddedSigner (basic : BasicOcspResponse) (cert : Certificate) : Prop :=
  ∃ der ∈ basic.embeddedCertDers, Certificate.fromDer E der = .ok cert ∧
    basic.verifySignature E cert.spki.der = .ok ()

/-- The echoed nonce is the one sent; it may be missing unless the policy wants it. -/
def NonceAnswers (policy : NoncePolicy) (echoed : Option Bytes) (nonce : Bytes) : Prop :=
  match echoed with
  | some e => e = nonce
  | none => policy ≠ .requireEcho

/-- The first entry with the CertID of the request is good and current. -/
def GoodEntry (basic : BasicOcspResponse) (subject : Certificate) (nameHash keyHash : Bytes)
    (now : Nat) : Prop :=
  ∃ answer, basic.responses.find?
      (fun entry => entry.certId.matchesRequest nameHash keyHash subject.serialDer) = some answer ∧
    answer.status = .good ∧ InWindow basic.producedAt answer.thisUpdate answer.nextUpdate now

variable {E}

theorem checkNonce_ok_iff {policy : NoncePolicy} {echoed : Option Bytes} {nonce : Bytes} :
    checkNonce policy echoed nonce = .ok () ↔ NonceAnswers policy echoed nonce := by
  cases echoed <;> simp [checkNonce, NonceAnswers]

theorem checkStatus_ok_iff {status : CertStatus} :
    checkStatus E status = .ok () ↔ status = .good := by
  cases status <;> simp [checkStatus]

theorem verify_toOption_eq_some {basic : BasicOcspResponse} {spki : SpkiDer}
    {v : VerifiedOcspResponse E}
    (h : (VerifiedOcspResponse.verify E basic spki).toOption = some v) :
    VerifiedOcspResponse.verify E basic spki = .ok v := by
  cases hv : VerifiedOcspResponse.verify E basic spki with
  | error e => simp [hv, Except.toOption] at h
  | ok w => simpa [hv, Except.toOption] using h

theorem responder_basic {basic : BasicOcspResponse} {issuer : Certificate}
    {v : VerifiedOcspResponse E} (h : responder E basic issuer = some v) : v.basic = basic := by
  unfold responder at h
  split at h
  next w hw =>
    injection h with h
    subst h
    exact (verify_eq_ok hw).1
  · obtain ⟨der, -, hd⟩ := List.exists_of_findSome?_eq_some h
    split at hd
    · exact absurd hd (by simp)
    · exact (verify_eq_ok (verify_toOption_eq_some hd)).1

/-- **The responder search succeeds on any verifying key**, the issuer's or an embedded
    one, whoever issued that certificate. -/
theorem responder_isSome_iff {basic : BasicOcspResponse} {issuer : Certificate} :
    (∃ v, responder E basic issuer = some v) ↔
      basic.verifySignature E issuer.spki.der = .ok () ∨
        ∃ cert, EmbeddedSigner E basic cert := by
  unfold responder
  cases hv : VerifiedOcspResponse.verify E basic issuer.spki with
  | ok v =>
    have := verify_isOk_iff.mp ⟨v, hv⟩
    simp [this]
  | error e =>
    have hIssuer : basic.verifySignature E issuer.spki.der ≠ .ok () := by
      intro hok
      obtain ⟨v, hv'⟩ := verify_isOk_iff.mpr hok
      exact absurd (hv.symm.trans hv') (by simp)
    simp only [hIssuer, false_or]
    constructor
    · intro hx
      obtain ⟨v, h⟩ := hx
      obtain ⟨der, hmem, hd⟩ := List.exists_of_findSome?_eq_some h
      split at hd
      · exact absurd hd (by simp)
      next cert hc =>
        exact ⟨cert, der, hmem, hc, verify_isOk_iff.mp ⟨v, verify_toOption_eq_some hd⟩⟩
    · intro hx
      obtain ⟨cert, der, hmem, hc, hver⟩ := hx
      rw [← Option.isSome_iff_exists, List.findSome?_isSome_iff]
      obtain ⟨v, hv'⟩ := verify_isOk_iff.mpr hver
      exact ⟨der, hmem, by simp [hc, hv', Except.toOption]⟩

/-- **The code's acceptance condition**, in full. -/
theorem checkResponse_ok_iff {policy : NoncePolicy} {der : Bytes} {subject issuer : Certificate}
    {nameHash keyHash nonce : Bytes} {now : Nat} :
    checkResponse E policy der subject issuer nameHash keyHash nonce now = .ok () ↔
      ∃ basic, OcspResponse.parse E der = .ok ⟨.successful, some basic⟩ ∧
        (basic.verifySignature E issuer.spki.der = .ok () ∨ ∃ cert, EmbeddedSigner E basic cert) ∧
        NonceAnswers policy basic.nonce nonce ∧
        GoodEntry basic subject nameHash keyHash now := by
  constructor
  · intro h
    simp only [checkResponse, bind, Except.bind] at h
    split at h
    · exact absurd h (by simp)
    next response hParse =>
    have hParse : OcspResponse.parse E der = .ok response := by
      cases hp : OcspResponse.parse E der with
      | error e => simp [hp, Except.mapError] at hParse
      | ok r => simpa [hp, Except.mapError] using hParse
    obtain ⟨status, optBasic⟩ := response
    split at h
    · exact absurd h (by simp)
    next hStatus =>
    have hStatus : status = .successful := by
      by_contra hne
      simp [hne] at hStatus
    subst hStatus
    cases optBasic with
    | none => exact absurd h (by simp)
    | some basic =>
    simp only at h
    cases hr : responder E basic issuer with
    | none => simp [hr] at h
    | some v =>
    simp only [hr] at h
    split at h
    · exact absurd h (by simp)
    next u hNonce =>
    cases u
    have hv := responder_basic hr
    simp only [VerifiedOcspResponse.singleResponses, hv] at h
    cases hf : basic.responses.find? (fun entry =>
        entry.certId.matchesRequest nameHash keyHash subject.serialDer) with
    | none => simp [hf] at h
    | some answer =>
    simp only [hf] at h
    split at h
    · exact absurd h (by simp)
    next u hTimes =>
    cases u
    exact ⟨basic, hParse, responder_isSome_iff.mp ⟨v, hr⟩, checkNonce_ok_iff.mp hNonce,
      answer, hf, checkStatus_ok_iff.mp h, (checkOcspTimes_ok_iff E).mp hTimes⟩
  · intro hx
    obtain ⟨basic, hParse, hSigner, hNonce, answer, hf, hGood, hWindow⟩ := hx
    obtain ⟨v, hr⟩ := responder_isSome_iff.mpr hSigner
    have hv := responder_basic hr
    simp only [checkResponse, bind, Except.bind, hParse, Except.mapError, ne_eq, not_true_eq_false,
      if_false, hr, checkNonce_ok_iff.mpr hNonce, VerifiedOcspResponse.singleResponses, hv, hf,
      (checkOcspTimes_ok_iff E).mpr hWindow, checkStatus_ok_iff.mpr hGood]

/-! ## §5. What an answer is for -/

variable (E)

/-- The extensions of `cert` grant OCSP signing, by the strict reading. -/
def delegatedForOcspSigning (cert : Certificate) : Bool :=
  match pathExtensionProfile (cert.extensions.getD []) with
  | .ok profile => profile.ocspSigningExtendedKeyUsage
  | .error _ => false

/-- A responder the issuer delegated to: signed by the issuer's key and granted OCSP
    signing. -/
def AuthorisedResponder (issuer cert : Certificate) : Prop :=
  cert.verifySignedBy E issuer = .ok () ∧ delegatedForOcspSigning cert

/-- **A sound answer.**  Its signature is the issuer's or that of an embedded responder
    the issuer delegated to; one of its entries has exactly the CertID of the request, is
    good and lies in the window; its nonce is the one sent. -/
def AnswerSound (policy : NoncePolicy) (der : Bytes) (subject issuer : Certificate)
    (nameHash keyHash nonce : Bytes) (now : Nat) : Prop :=
  ∃ basic, OcspResponse.parse E der = .ok ⟨.successful, some basic⟩ ∧
    (basic.verifySignature E issuer.spki.der = .ok () ∨
      ∃ cert, EmbeddedSigner E basic cert ∧ AuthorisedResponder E issuer cert) ∧
    (∃ entry ∈ basic.responses,
      entry.certId = ⟨Oid.sha1, nameHash, keyHash, subject.serialDer⟩ ∧ entry.status = .good ∧
        InWindow basic.producedAt entry.thisUpdate entry.nextUpdate now) ∧
    NonceAnswers policy basic.nonce nonce

/-- **The responses that get through unauthorised**: not signed by the issuer, signed by
    the key of an embedded certificate, and every such certificate is unsigned by the
    issuer or not granted OCSP signing; nothing else is wrong with the response. -/
def UnauthorisedResponder (policy : NoncePolicy) (der : Bytes) (subject issuer : Certificate)
    (nameHash keyHash nonce : Bytes) (now : Nat) : Prop :=
  ∃ basic, OcspResponse.parse E der = .ok ⟨.successful, some basic⟩ ∧
    basic.verifySignature E issuer.spki.der ≠ .ok () ∧
    (∃ cert, EmbeddedSigner E basic cert) ∧
    (∀ cert, EmbeddedSigner E basic cert → ¬ AuthorisedResponder E issuer cert) ∧
    NonceAnswers policy basic.nonce nonce ∧
    GoodEntry basic subject nameHash keyHash now

theorem goodEntry_mem {basic : BasicOcspResponse} {subject : Certificate}
    {nameHash keyHash : Bytes} {now : Nat} (h : GoodEntry basic subject nameHash keyHash now) :
    ∃ entry ∈ basic.responses,
      entry.certId = ⟨Oid.sha1, nameHash, keyHash, subject.serialDer⟩ ∧ entry.status = .good ∧
        InWindow basic.producedAt entry.thisUpdate entry.nextUpdate now := by
  obtain ⟨answer, hf, hGood, hWindow⟩ := h
  have hMatch := List.find?_some hf
  exact ⟨answer, List.mem_of_find?_eq_some hf, by simpa using hMatch, hGood, hWindow⟩

variable {E} in
/-- What an unauthorised embedded responder signs is accepted and is not sound. -/
theorem accepted_of_unauthorised {policy : NoncePolicy} {der : Bytes}
    {subject issuer : Certificate} {nameHash keyHash nonce : Bytes} {now : Nat}
    (h : UnauthorisedResponder E policy der subject issuer nameHash keyHash nonce now) :
    checkResponse E policy der subject issuer nameHash keyHash nonce now = .ok () ∧
      ¬ AnswerSound E policy der subject issuer nameHash keyHash nonce now := by
  obtain ⟨basic, hParse, hIssuer, hEmbedded, hNone, hNonce, hEntry⟩ := h
  refine ⟨checkResponse_ok_iff.mpr ⟨basic, hParse, .inr hEmbedded, hNonce, hEntry⟩, ?_⟩
  intro hx
  obtain ⟨basic', hParse', hSigner, -, -⟩ := hx
  obtain rfl : basic = basic' := by
    rw [hParse] at hParse'
    injection hParse' with h
    injection h with _ h
    injection h
  rcases hSigner with h | ⟨cert, hc, hAuth⟩
  · exact hIssuer h
  · exact hNone cert hc hAuth

/-- **Authorisation, exactly**: for every response, certificate pair, nonce, policy and
    clock, acceptance implies a sound answer if and only if the response is not one an
    unauthorised embedded responder signed. -/
theorem checkResponse_sound_iff (policy : NoncePolicy) (der : Bytes)
    (subject issuer : Certificate) (nameHash keyHash nonce : Bytes) (now : Nat) :
    (checkResponse E policy der subject issuer nameHash keyHash nonce now = .ok () →
        AnswerSound E policy der subject issuer nameHash keyHash nonce now) ↔
      ¬ UnauthorisedResponder E policy der subject issuer nameHash keyHash nonce now := by
  constructor
  · intro hSound hUnauthorised
    obtain ⟨hOk, hNot⟩ := accepted_of_unauthorised hUnauthorised
    exact hNot (hSound hOk)
  · intro hNot hOk
    obtain ⟨basic, hParse, hSigner, hNonce, hEntry⟩ := checkResponse_ok_iff.mp hOk
    refine ⟨basic, hParse, ?_, goodEntry_mem hEntry, hNonce⟩
    by_contra hUnsigned
    rw [not_or] at hUnsigned
    obtain ⟨hIssuer, hEmb⟩ := hUnsigned
    refine hNot ⟨basic, hParse, hIssuer, hSigner.resolve_left hIssuer, ?_, hNonce, hEntry⟩
    intro cert hc hAuth
    exact hEmb ⟨cert, hc, hAuth⟩

/-! ## §6. Deciding it -/

/-- The embedded certificates whose key verifies the response. -/
def embeddedSigners (basic : BasicOcspResponse) : List Certificate :=
  basic.embeddedCertDers.filterMap fun der =>
    match Certificate.fromDer E der with
    | .ok cert => if basic.verifySignature E cert.spki.der = .ok () then some cert else none
    | .error _ => none

theorem mem_embeddedSigners {basic : BasicOcspResponse} {cert : Certificate} :
    cert ∈ embeddedSigners E basic ↔ EmbeddedSigner E basic cert := by
  simp only [embeddedSigners, List.mem_filterMap, EmbeddedSigner]
  refine exists_congr fun der => and_congr_right fun _ => ?_
  cases hc : Certificate.fromDer E der with
  | error e => simp
  | ok c =>
    simp only [Except.ok.injEq]
    constructor
    · intro h
      split at h
      next hv =>
        injection h with h
        subst h
        exact ⟨rfl, hv⟩
      · exact absurd h (by simp)
    · intro hx
      obtain ⟨rfl, hv⟩ := hx
      rw [if_pos hv]

instance (producedAt thisUpdate : Nat) (nextUpdate : Option Nat) (now : Nat) :
    Decidable (InWindow producedAt thisUpdate nextUpdate now) :=
  decidable_of_iff _ (checkOcspTimes_ok_iff (Externals.sample [] [] []))

instance (policy : NoncePolicy) (echoed : Option Bytes) (nonce : Bytes) :
    Decidable (NonceAnswers policy echoed nonce) :=
  decidable_of_iff _ checkNonce_ok_iff

/-- The check that decides `UnauthorisedResponder`. -/
def unauthorisedResponder (policy : NoncePolicy) (der : Bytes) (subject issuer : Certificate)
    (nameHash keyHash nonce : Bytes) (now : Nat) : Bool :=
  match OcspResponse.parse E der with
  | .ok ⟨.successful, some basic⟩ =>
    decide (basic.verifySignature E issuer.spki.der ≠ .ok ()) &&
    !(embeddedSigners E basic).isEmpty &&
    (embeddedSigners E basic).all (fun cert =>
      decide (¬ (cert.verifySignedBy E issuer = .ok () ∧ delegatedForOcspSigning cert))) &&
    decide (NonceAnswers policy basic.nonce nonce) &&
    match basic.responses.find?
        (fun entry => entry.certId.matchesRequest nameHash keyHash subject.serialDer) with
    | none => false
    | some answer => decide (answer.status = .good) &&
        decide (InWindow basic.producedAt answer.thisUpdate answer.nextUpdate now)
  | _ => false

theorem unauthorisedResponder_sound {policy : NoncePolicy} {der : Bytes}
    {subject issuer : Certificate} {nameHash keyHash nonce : Bytes} {now : Nat}
    (h : unauthorisedResponder E policy der subject issuer nameHash keyHash nonce now = true) :
    UnauthorisedResponder E policy der subject issuer nameHash keyHash nonce now := by
  unfold unauthorisedResponder at h
  split at h
  next basic hParse =>
    simp only [Bool.and_eq_true, decide_eq_true_eq, List.all_eq_true, Bool.not_eq_true',
      List.isEmpty_eq_false_iff] at h
    obtain ⟨⟨⟨⟨hIssuer, hSome⟩, hAll⟩, hNonce⟩, hEntry⟩ := h
    obtain ⟨cert, hcert⟩ := List.exists_mem_of_ne_nil _ hSome
    refine ⟨basic, hParse, hIssuer, ⟨cert, (mem_embeddedSigners E).mp hcert⟩, ?_, hNonce, ?_⟩
    · intro c hc
      exact hAll c ((mem_embeddedSigners E).mpr hc)
    · split at hEntry
      · exact absurd hEntry (by simp)
      next answer hf =>
        simp only [Bool.and_eq_true, decide_eq_true_eq] at hEntry
        exact ⟨answer, hf, hEntry.1, hEntry.2⟩
  · exact absurd h (by simp)

end

/-! ## §7. A response that gets through

Three P-256 keys: a CA, a subject it certified under serial 0x42, and a stranger with a
self-signed certificate without extensions.  The stranger answers for the subject,
signs the answer and embeds that certificate. -/

def issuerDer : Bytes :=
  octets 32 0x308201003081a8020101300a06082a8648ce3d040302300d310b300906035504 ++
  octets 32 0x030c024341301e170d3236303130313030303030305a170d3237303130313030 ++
  octets 32 0x303030305a300d310b300906035504030c0243413059301306072a8648ce3d02 ++
  octets 32 0x0106082a8648ce3d03010703420004ce870e72b21f4c61a4d9fb277fd2dcf17c ++
  octets 32 0xcdc61248d79b1dda92f99f60d1e8d0ba37ad1d290bdf3e79beb39e05d8b77066 ++
  octets 32 0x5d533396d5c10f262a41b7c6cd140b300a06082a8648ce3d0403020347003044 ++
  octets 32 0x02202e8602a2e2fc93b4e4f1ebd9fb0f62236a1019e55edd0cc82049fa1754bc ++
  octets 32 0x872f02203c6c6c48816ad5c8b95f2481b3df932d67c26a831cbc12d20136e1e3 ++
  octets 4 0x0585b1e5

def subjectDer : Bytes :=
  octets 32 0x308201003081a7020142300a06082a8648ce3d040302300d310b300906035504 ++
  octets 32 0x030c024341301e170d3236303130313030303030305a170d3237303130313030 ++
  octets 32 0x303030305a300c310a300806035504030c01533059301306072a8648ce3d0201 ++
  octets 32 0x06082a8648ce3d03010703420004b2822927480dc72675693f20c39e4dd435cb ++
  octets 32 0x937a457d89a0083dcae7c185b121534f9eb4867a82fc877de42638954ed06f96 ++
  octets 32 0xe3fecbda14d5c907202ecb658ef8300a06082a8648ce3d040302034800304502 ++
  octets 32 0x210084619769342498b76652baf1f7a75af267d77e4db3e269a0c84cc6feb8ad ++
  octets 32 0xdf8902206242b918e564ffda0a8fdc97842af9a1577c6011db833f79c8ac0509 ++
  octets 4 0x8c2d5c4a

def rogueResponse : Bytes :=
  octets 32 0x308202360a0100a082022f3082022b06092b06010505073001010482021c3082 ++
  octets 32 0x02183081b4a21604145a8c4c6be48c2a1494b5e69ce197aefe6df08541180f32 ++
  octets 32 0x303236303630313030303030305a30643062303a300906052b0e03021a050004 ++
  octets 32 0x14711d397671c9facf2242095925979a0698e46b110414f885f44b74c5f670e8 ++
  octets 32 0x298e605d32e033006bb3ee0201428000180f3230323630363031303030303030 ++
  octets 32 0x5aa011180f32303236303630323030303030305aa1233021301f06092b060105 ++
  octets 32 0x0507300102041204100102030405060708090a0b0c0d0e0f10300a06082a8648 ++
  octets 32 0xce3d0403020349003046022100916338fdcccf9ff4df4a89ef56e14666776448 ++
  octets 32 0x56740b666457a70291fdbe911a02210089222f0eef2b4621fae2db19bf66b850 ++
  octets 32 0x2621e9e62854285de4cabc5b5685a69aa0820106308201023081ff3081a60201 ++
  octets 32 0x07300a06082a8648ce3d040302300c310a300806035504030c0141301e170d32 ++
  octets 32 0x36303130313030303030305a170d3237303130313030303030305a300c310a30 ++
  octets 32 0x0806035504030c01413059301306072a8648ce3d020106082a8648ce3d030107 ++
  octets 32 0x034200044f6e9a9b1b2a02af9387021dde6816d8dc71789e10312df3030b9f5a ++
  octets 32 0x873adb03c7d93d7d84ecd22877f9dba87c483c642374cff97221e0271b43d85d ++
  octets 32 0xbb97a469300a06082a8648ce3d0403020348003045022100f19b6bfd5114027f ++
  octets 32 0xd96c2e51fa5cf0b6fafd43961a215edf67d532de55f3ea1502205fe6b21a0943 ++
  octets 26 0xf28a60d777236a1d899c5d633d5aedf6ea34a937918b2647a66d

/-- The SHA-256 digests of the response data and of the stranger's TBSCertificate, and the
    stranger's signature over the former: nothing else verifies. -/
def rogueExternals : Externals :=
  Externals.sample []
    [((rogueResponse.drop 34).take 183,
      octets 32 0x3fc328167fcf37f10519271cbf47d38faffece6c593d77c083140d4c9c3e1765),
     ((rogueResponse.drop 315).take 169,
      octets 32 0x92a5b99a21e01803b3b9d5cd5124e0b59c16bb4924c615eb129664ee3662c55f)]
    [(octets 33 0x044f6e9a9b1b2a02af9387021dde6816d8dc71789e10312df3030b9f5a873adb03 ++
        octets 32 0xc7d93d7d84ecd22877f9dba87c483c642374cff97221e0271b43d85dbb97a469,
      octets 36 0x3046022100916338fdcccf9ff4df4a89ef56e1466677644856740b666457a70291fdbe91 ++
        octets 36 0x1a02210089222f0eef2b4621fae2db19bf66b8502621e9e62854285de4cabc5b5685a69a,
      octets 32 0x3fc328167fcf37f10519271cbf47d38faffece6c593d77c083140d4c9c3e1765)]

/-- The certificate in `der`, or a value with empty fields. -/
def certificateOf (E : Externals) (der : Bytes) : Certificate :=
  match Certificate.fromDer E der with
  | .ok cert => cert
  | .error _ => ⟨[], [], [], [], [], 0, 0, ⟨[], .other, []⟩, none, [], []⟩

/-- **Not sound as the code stands**: on 1 June 2026, with the nonce echoed and
    `RequireEcho`, the stranger's answer is accepted. -/
theorem checkResponse_accepts_rogue :
    ∃ subject issuer,
      Certificate.fromDer rogueExternals subjectDer = .ok subject ∧
      Certificate.fromDer rogueExternals issuerDer = .ok issuer ∧
      checkResponse rogueExternals .requireEcho rogueResponse subject issuer
        (octets 20 0x711d397671c9facf2242095925979a0698e46b11)
        (octets 20 0xf885f44b74c5f670e8298e605d32e033006bb3ee)
        (octets 16 0x0102030405060708090a0b0c0d0e0f10) 1780272000 = .ok () ∧
      ¬ AnswerSound rogueExternals .requireEcho rogueResponse subject issuer
        (octets 20 0x711d397671c9facf2242095925979a0698e46b11)
        (octets 20 0xf885f44b74c5f670e8298e605d32e033006bb3ee)
        (octets 16 0x0102030405060708090a0b0c0d0e0f10) 1780272000 := by
  refine ⟨certificateOf rogueExternals subjectDer, certificateOf rogueExternals issuerDer,
    by decide +kernel, by decide +kernel, ?_⟩
  exact accepted_of_unauthorised (unauthorisedResponder_sound _ (by decide +kernel))

end RefineId
