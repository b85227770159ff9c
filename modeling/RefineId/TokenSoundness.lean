/-
  RefineId.TokenSoundness — what an accepted time-stamp token proves.
  ════════════════════════════════════════════════════════════════════════════

  When `verified_token` returns a token, the response had nothing else in it, the
  authority granted it, and the parts all point at each other: the signature covers the
  attributes, the attributes hold the digest of the TSTInfo and the hash of the signer's
  certificate, the TSTInfo holds the digest and the nonce of the request, and the
  certificate is an end entity's, for time stamping alone, at the time in the TSTInfo.

  In the other direction: an authority that echoes the INTEGER which `request` wrote is
  never refused for it, whatever octets the nonce was made of.

  Main results:
    • `parseExtensions_listed`   : the parsed extensions are those of a list without
                                   repetitions.
    • `checkBinding_sound`       : the bindings of an accepted token.
    • `request_nonce`            : the INTEGER in the request is `positive_integer`.
    • `verifiedToken_contract`   : both directions, for every response.
-/
import RefineId.Timestamp

namespace RefineId

namespace Timestamp

open Ber Lib Cms Cades

/-! ## §1. Certificate extensions -/

/-- One extension as the loop reads it. -/
def parseExtension (policy : ExtensionBooleanPolicy) (t : BerTlvAny) :
    Except TimestampError Extension := do
  let (oid, fields) ← extensionOid t
  parseExtensionFields policy oid fields

/-- The parsed record says what the extensions of the list say. -/
structure Reflects (xs : List Extension) (parsed : ParsedExtensions) : Prop where
  ca : ∀ x ∈ xs, x.oid = Oid.basicConstraints →
    parseBasicConstraints x.value = .ok parsed.basicConstraintsCa
  eku : ∀ eku, parsed.extendedKeyUsage = some eku →
    ∃ x ∈ xs, x.oid = Oid.extKeyUsage ∧ parseExtendedKeyUsage x.value x.critical = .ok eku

theorem reflects_nil : Reflects [] {} :=
  ⟨fun _ hx => absurd hx (by simp), fun _ h => absurd h (by simp)⟩

/-- An extension of another kind changes neither of the two. -/
theorem reflects_other {xs : List Extension} {parsed parsed' : ParsedExtensions} {x : Extension}
    (h : Reflects xs parsed) (hbc : x.oid ≠ Oid.basicConstraints)
    (hca : parsed'.basicConstraintsCa = parsed.basicConstraintsCa)
    (heku : parsed'.extendedKeyUsage = parsed.extendedKeyUsage) : Reflects (xs ++ [x]) parsed' := by
  refine ⟨?_, ?_⟩
  · intro y hy hoid
    rcases List.mem_append.mp hy with hy | hy
    · rw [hca]
      exact h.ca y hy hoid
    · rw [List.mem_singleton.mp hy] at hoid
      exact absurd hoid hbc
  · intro eku hsome
    rw [heku] at hsome
    obtain ⟨y, hy, hoid, hparse⟩ := h.eku eku hsome
    exact ⟨y, List.mem_append.mpr (.inl hy), hoid, hparse⟩

theorem addExtension_reflects {xs : List Extension} {acc acc' : ParsedExtensions} {x : Extension}
    (hadd : addExtension acc x = .ok acc') (hnew : ∀ y ∈ xs, y.oid ≠ x.oid)
    (h : Reflects xs acc) : Reflects (xs ++ [x]) acc' := by
  unfold addExtension at hadd
  by_cases hski : x.oid = Oid.subjectKeyIdentifier
  · rw [if_pos hski] at hadd
    simp only [bind_eq_ok, pure_eq_ok] at hadd
    obtain ⟨_, _, _, _, rfl⟩ := hadd
    exact reflects_other h (by rw [hski]; decide) rfl rfl
  rw [if_neg hski] at hadd
  by_cases hbc : x.oid = Oid.basicConstraints
  · rw [if_pos hbc] at hadd
    simp only [bind_eq_ok, pure_eq_ok] at hadd
    obtain ⟨ca, hca, rfl⟩ := hadd
    refine ⟨?_, ?_⟩
    · intro y hy hoid
      rcases List.mem_append.mp hy with hy | hy
      · exact absurd (hoid.trans hbc.symm) (hnew y hy)
      · rw [List.mem_singleton.mp hy]
        exact hca
    · intro eku hsome
      obtain ⟨y, hy, hoid, hparse⟩ := h.eku eku hsome
      exact ⟨y, List.mem_append.mpr (.inl hy), hoid, hparse⟩
  rw [if_neg hbc] at hadd
  by_cases hku : x.oid = Oid.keyUsage
  · rw [if_pos hku] at hadd
    simp only [bind_eq_ok, pure_eq_ok] at hadd
    obtain ⟨_, _, rfl⟩ := hadd
    exact reflects_other h hbc rfl rfl
  rw [if_neg hku] at hadd
  by_cases heku : x.oid = Oid.extKeyUsage
  · rw [if_pos heku] at hadd
    simp only [bind_eq_ok, pure_eq_ok] at hadd
    obtain ⟨eku, hparse, rfl⟩ := hadd
    have hold : Reflects (xs ++ [x]) acc := reflects_other h hbc rfl rfl
    refine ⟨hold.ca, ?_⟩
    intro eku' hsome
    injection hsome with hsome
    exact ⟨x, by simp, heku, hsome ▸ hparse⟩
  rw [if_neg heku] at hadd
  by_cases hsan : x.oid = Oid.subjectAltName
  · rw [if_pos hsan] at hadd
    simp only [bind_eq_ok, pure_eq_ok] at hadd
    obtain ⟨_, _, rfl⟩ := hadd
    exact reflects_other h hbc rfl rfl
  rw [if_neg hsan] at hadd
  by_cases hcrit : x.critical = true
  · rw [if_pos hcrit] at hadd
    exact absurd hadd (by simp [malformed])
  · rw [if_neg hcrit, pure_eq_ok] at hadd
    exact hadd ▸ reflects_other h hbc rfl rfl

theorem parseExtensionFields_oid {policy : ExtensionBooleanPolicy} {oid : Bytes} {fields : Fields}
    {x : Extension} (h : parseExtensionFields policy oid fields = .ok x) : x.oid = oid := by
  simp only [parseExtensionFields, bind_eq_ok, pure_eq_ok] at h
  obtain ⟨_, _, _, _, _, _, rfl⟩ := h
  rfl

/-- **The loop reads a list of extensions without repetitions**, and the record reflects
    it. -/
theorem extensionsLoop_listed {policy : ExtensionBooleanPolicy} {fields : Fields}
    {xs : List Extension} {acc parsed : ParsedExtensions} {seen : List Bytes}
    (h : extensionsLoop policy (xs.map Extension.oid) acc fields = .ok (seen, parsed))
    (hnodup : (xs.map Extension.oid).Nodup) (hacc : Reflects xs acc) :
    ∃ ts ys, fields = ts.map .ok ∧ List.Forall₂ (fun t y => parseExtension policy t = .ok y) ts ys ∧
      ((xs ++ ys).map Extension.oid).Nodup ∧ Reflects (xs ++ ys) parsed := by
  induction fields generalizing xs acc with
  | nil =>
    injection h with h
    injection h with _ h
    refine ⟨[], [], rfl, .nil, by simpa using hnodup, ?_⟩
    rw [List.append_nil]
    exact h ▸ hacc
  | cons field rest ih =>
    cases field with
    | error e => exact absurd h (by simp [extensionsLoop, malformed])
    | ok t =>
      simp only [extensionsLoop, bind_eq_ok, ensure_eq_ok] at h
      obtain ⟨⟨oid, fs⟩, hoid, _, hseen, x, hx, acc1, hadd, hrest⟩ := h
      dsimp only at hseen hx hrest
      have hxoid : x.oid = oid := parseExtensionFields_oid hx
      have hnew : oid ∉ xs.map Extension.oid := by simpa using hseen
      have hnewx : ∀ y ∈ xs, y.oid ≠ x.oid := by
        intro y hy heq
        rw [hxoid] at heq
        exact hnew (heq ▸ List.mem_map_of_mem hy)
      have hmap : xs.map Extension.oid ++ [oid] = (xs ++ [x]).map Extension.oid := by
        rw [List.map_append, List.map_singleton, hxoid]
      rw [hmap] at hrest
      have hnd : ((xs ++ [x]).map Extension.oid).Nodup := by
        rw [← hmap, List.nodup_append]
        refine ⟨hnodup, by simp, ?_⟩
        intro a ha b hb
        rw [List.mem_singleton.mp hb]
        exact fun hab => hnew (hab ▸ ha)
      obtain ⟨ts, ys, hfields, hall, hnd', href⟩ :=
        ih hrest hnd (addExtension_reflects hadd hnewx hacc)
      refine ⟨t :: ts, x :: ys, by rw [hfields]; rfl, .cons ?_ hall, ?_, ?_⟩
      · simp only [parseExtension, bind_eq_ok]
        exact ⟨(oid, fs), hoid, hx⟩
      · simpa using hnd'
      · simpa using href

/-- The extensions of a certificate, one by one. -/
def Lists (extensions : Bytes) (xs : List Extension) : Prop :=
  ∃ ts, children extensions = ts.map .ok ∧
    List.Forall₂ (fun t x => parseExtension .strictDer t = .ok x) ts xs ∧
    (xs.map Extension.oid).Nodup

theorem parseExtensions_listed {extensions : Bytes} {parsed : ParsedExtensions}
    (h : parseExtensions extensions = .ok parsed) :
    ∃ xs, Lists extensions xs ∧ Reflects xs parsed := by
  simp only [parseExtensions, parseExtensionsWithPolicy, bind_eq_ok, pure_eq_ok] at h
  obtain ⟨⟨seen, parsed'⟩, hloop, _, _, rfl⟩ := h
  have hnone : (([] : List Extension).map Extension.oid).Nodup := List.nodup_nil
  obtain ⟨ts, ys, hfields, hall, hnd, href⟩ := extensionsLoop_listed hloop hnone reflects_nil
  exact ⟨ys, ⟨ts, hfields, hall, by simpa using hnd⟩, by simpa using href⟩

/-- **The certificate profile of a time-stamp authority**: an end entity whose only purpose
    is time stamping, marked critical. -/
structure TsaProfile (certificate : Certificate) : Prop where
  listed : ∃ extensions xs, certificate.extensions = some extensions ∧ Lists extensions xs ∧
    (∀ x ∈ xs, x.oid = Oid.basicConstraints → parseBasicConstraints x.value = .ok false) ∧
    ∃ x ∈ xs, x.oid = Oid.extKeyUsage ∧ x.critical = true ∧
      parseExtendedKeyUsage x.value x.critical = .ok ⟨[Oid.kpTimeStamping], true⟩

theorem parseExtendedKeyUsage_critical {value : Bytes} {critical : Bool}
    {eku : ParsedExtendedKeyUsage} (h : parseExtendedKeyUsage value critical = .ok eku) :
    eku.critical = critical := by
  simp only [parseExtendedKeyUsage, bind_eq_ok, pure_eq_ok] at h
  obtain ⟨_, _, _, _, _, _, rfl⟩ := h
  rfl

/-- **`tsa_certificate_is_usable`**: valid at the time, and of the profile. -/
theorem tsaCertificateIsUsable_ok {certificate : Certificate} {genTime : Nat}
    (h : tsaCertificateIsUsable certificate genTime = .ok ()) :
    (certificate.notBefore ≤ genTime ∧ genTime ≤ certificate.notAfter) ∧
      TsaProfile certificate := by
  simp only [tsaCertificateIsUsable, bind_eq_ok, ensure_eq_ok, okOr_eq_ok, mapError_eq_ok_iff] at h
  obtain ⟨_, htime, extensions, hext, parsed, hparsed, _, hca, eku, heku, _, hcrit, _⟩ := h
  have htime : ¬ genTime < certificate.notBefore ∧ ¬ certificate.notAfter < genTime := by
    simpa using htime
  have hca : parsed.basicConstraintsCa = false := by simpa using hca
  have hcrit : eku.critical = true ∧ eku.oids = [Oid.kpTimeStamping] := by simpa using hcrit
  obtain ⟨xs, hlists, href⟩ := parseExtensions_listed hparsed
  obtain ⟨x, hx, hoid, hparse⟩ := href.eku eku heku
  refine ⟨⟨Nat.le_of_not_lt htime.1, Nat.le_of_not_lt htime.2⟩, ⟨extensions, xs, hext, hlists, ?_, x, hx, hoid, ?_, ?_⟩⟩
  · intro y hy hybc
    rw [← hca]
    exact href.ca y hy hybc
  · rw [← parseExtendedKeyUsage_critical hparse]
    exact hcrit.1
  · rw [hparse, ← hcrit.1, ← hcrit.2]

/-! ## §2. The signer's certificate -/

/-- An embedded certificate that matches the signer identifier. -/
def Embedded (E : Externals) (sd : SignedData) (certificate : Certificate) : Prop :=
  ∃ der ∈ sd.certificatesDer, Certificate.fromDer E der = .ok certificate ∧
    certificateMatchesSid certificate sd.signer.signerIdentifier = .ok true

theorem matchingCertificates_mem {E : Externals} {sid : SignerIdentifier} {ders : List Bytes}
    {found found' : List Certificate} (h : matchingCertificates E sid found ders = .ok found')
    {certificate : Certificate} (hmem : certificate ∈ found') :
    certificate ∈ found ∨ ∃ der ∈ ders, Certificate.fromDer E der = .ok certificate ∧
      certificateMatchesSid certificate sid = .ok true := by
  induction ders generalizing found with
  | nil =>
    injection h with h
    exact .inl (h ▸ hmem)
  | cons der rest ih =>
    have hskip : ∀ {found1 : List Certificate},
        (certificate ∈ found1 ∨ ∃ d ∈ rest, Certificate.fromDer E d = .ok certificate ∧
          certificateMatchesSid certificate sid = .ok true) →
        (certificate ∈ found1 → certificate ∈ found ∨
          ∃ d ∈ der :: rest, Certificate.fromDer E d = .ok certificate ∧
            certificateMatchesSid certificate sid = .ok true) →
        certificate ∈ found ∨ ∃ d ∈ der :: rest, Certificate.fromDer E d = .ok certificate ∧
          certificateMatchesSid certificate sid = .ok true := by
      intro found1 hcase hhead
      rcases hcase with hc | ⟨d, hd, hc⟩
      · exact hhead hc
      · exact .inr ⟨d, List.mem_cons_of_mem _ hd, hc⟩
    unfold matchingCertificates at h
    cases hder : Certificate.fromDer E der with
    | error e =>
      rw [hder] at h
      exact hskip (ih h) fun hc => .inl hc
    | ok c =>
      rw [hder] at h
      simp only [bind_eq_ok] at h
      obtain ⟨ok, hok, h⟩ := h
      split at h
      next hcond =>
        have hcond : ok = true := (Bool.and_eq_true_iff.mp hcond).1
        refine hskip (ih h) fun hc => ?_
        rcases List.mem_append.mp hc with hc | hc
        · exact .inl hc
        · rw [List.mem_singleton.mp hc]
          exact .inr ⟨der, by simp, hder, hcond ▸ hok⟩
      · exact hskip (ih h) fun hc => .inl hc

/-- **`select_signer_certificate`** returns an embedded certificate of the identified
    signer. -/
theorem selectSignerCertificate_ok {E : Externals} {sd : SignedData} {certificate : Certificate}
    (h : selectSignerCertificate E sd = .ok certificate) : Embedded E sd certificate := by
  simp only [selectSignerCertificate, bind_eq_ok] at h
  obtain ⟨found, hfound, h⟩ := h
  have hmem : certificate ∈ found := by
    split at h
    · exact absurd h (by simp)
    · rw [pure_eq_ok] at h
      simp [h]
    · exact absurd h (by simp)
  rcases matchingCertificates_mem hfound hmem with hc | hc
  · exact absurd hc (by simp)
  · exact hc

/-! ## §3. The signing-certificate attribute -/

/-- The signed attributes hold one signing-certificate attribute, and its first reference
    is the hash of this certificate. -/
def EssBinds (E : Externals) (sd : SignedData) (certificate : Certificate) : Prop :=
  ∃ attr v2 value certs first rest fields reference,
    essAttribute sd.signer.signedAttributes = .ok (attr, v2) ∧
    parseExact 0x30 attr.valuesDer "ESS attribute must have exactly one value" = .ok value ∧
    children value.value = .ok certs :: fields ∧ children certs.value = .ok first :: rest ∧
    parseEssCertificateReference first.value v2 = .ok reference ∧
    reference.hashAlgorithm.digest E certificate.rawDer = reference.certHash

theorem essNext_ok {tag : Nat} {fields rest : Fields} {t : BerTlvAny}
    (h : essNext tag fields = .ok (t, rest)) : fields = .ok t :: rest ∧ t.tag = tag := by
  unfold essNext at h
  split at h
  next t' rest' =>
    by_cases ht : t'.tag = tag
    · rw [if_pos ht] at h
      injection h with h
      injection h with h1 h2
      exact ⟨by rw [h1, h2], h1 ▸ ht⟩
    · rw [if_neg ht] at h
      exact absurd h (by simp [essInvalid])
  · exact absurd h (by simp [essInvalid])

theorem verifySigningCertificateAttribute_ok {E : Externals} {sd : SignedData}
    {certificate : Certificate}
    (h : verifySigningCertificateAttribute E sd certificate = .ok ()) :
    EssBinds E sd certificate := by
  simp only [verifySigningCertificateAttribute, bind_eq_ok, mapError_eq_ok_iff, ensure_eq_ok,
    decide_eq_true_eq] at h
  obtain ⟨⟨attr, v2⟩, hattr, value, hvalue, ⟨certs, fields⟩, hcerts, ⟨first, rest⟩, hfirst,
    reference, hreference, _, hhash, _⟩ := h
  obtain ⟨hcerts, -⟩ := essNext_ok hcerts
  obtain ⟨hfirst, -⟩ := essNext_ok hfirst
  exact ⟨attr, v2, value, certs, first, rest, fields, reference, hattr, hvalue, hcerts, hfirst,
    hreference, hhash⟩

/-! ## §4. The token -/

/-- The parts of an accepted token. -/
structure TokenParts where
  message : SignedData
  /-- The octets of signedAttrs. -/
  attrs : Bytes
  tst : TstInfo
  certificate : Certificate
  hash : HashAlg

/-- **The bindings of an accepted token**: everything refers to the same bytes and the
    same signer. -/
structure Binds (E : Externals) (S : SignatureChecks) (token expectedDigest : Bytes)
    (expectedAlgorithm : DigestAlgorithm) (nonce : Option Bytes) (verified : VerifiedBinding)
    (p : TokenParts) : Prop where
  /-- The token is a CMS message over a TSTInfo. -/
  message : SignedData.parse token = .ok p.message
  content : p.message.econtentTypeOid = Oid.tstInfo
  tst : parseTstInfo E p.message.econtentDer = .ok p.tst
  /-- The TSTInfo answers the request. -/
  algorithm : p.tst.imprintAlgorithmOid = expectedAlgorithm.oid
  imprint : p.tst.messageImprint = expectedDigest
  nonce : ∀ n, nonce = some n → p.tst.nonce = some (positiveInteger n)
  /-- The attributes bind exactly the bytes of the TSTInfo. -/
  attrs : SignedAttrsOf p.message p.attrs
  digestAttr : DigestInv ⟨p.message.signer.signedAttributes, some p.message.econtentTypeOid,
    p.message.signer.messageDigest⟩
  hash : hashFromOid p.message.signer.digestAlgorithmOid = some p.hash
  digest : p.message.signer.messageDigest = some (E.sha2 p.hash p.message.econtentDer)
  /-- The signature over those attributes verifies under an embedded certificate that the
      signer identifier and the signing-certificate attribute name. -/
  embedded : Embedded E p.message p.certificate
  signature : verifyDispatch E S p.message.signer.signatureAlgorithmOid p.hash
    p.certificate.spki.der (rebuiltSet p.attrs) p.message.signer.signature = .ok ()
  ess : EssBinds E p.message p.certificate
  /-- The certificate may sign time stamps at that time. -/
  notBefore : p.certificate.notBefore ≤ p.tst.genTime
  notAfter : p.tst.genTime ≤ p.certificate.notAfter
  profile : TsaProfile p.certificate
  /-- And these are the results. -/
  signer : verified.signerCertificate = p.certificate.rawDer
  time : verified.generatedAt = p.tst.genTime

theorem checkRequest_ok {tst : TstInfo} {expectedDigest : Bytes}
    {expectedAlgorithm : DigestAlgorithm} {nonce : Option Bytes}
    (h : checkRequest tst expectedDigest expectedAlgorithm nonce = .ok ()) :
    (tst.imprintAlgorithmOid = expectedAlgorithm.oid ∧ tst.messageImprint = expectedDigest) ∧
      ∀ n, nonce = some n → tst.nonce = some (positiveInteger n) := by
  simp only [checkRequest, bind_eq_ok, ensure_eq_ok] at h
  obtain ⟨_, himprint, hnonce⟩ := h
  refine ⟨by simpa using himprint, ?_⟩
  intro n hn
  rw [hn] at hnonce
  simpa [ensure_eq_ok] using hnonce

theorem checkBinding_sound {E : Externals} {S : SignatureChecks} {token expectedDigest : Bytes}
    {expectedAlgorithm : DigestAlgorithm} {nonce : Option Bytes} {verified : VerifiedBinding}
    (h : checkBinding E S token expectedDigest expectedAlgorithm nonce = .ok verified) :
    ∃ p, Binds E S token expectedDigest expectedAlgorithm nonce verified p := by
  simp only [checkBinding, bind_eq_ok, ensure_eq_ok, mapError_eq_ok_iff, pure_eq_ok,
    decide_eq_true_eq] at h
  obtain ⟨sd, hsd, _, htype, _, hsigned, tst, htst, _, hrequest, certificate, hselect, _, htsa, _,
    hverify, _, hess, _, husable, rfl⟩ := h
  obtain ⟨attrs, hattrs⟩ := signedAttrs_bound hsd hsigned
  obtain ⟨hash, hhash, hdigest, hdispatch⟩ := verify_ok hverify hattrs.signed
  obtain ⟨⟨halg, himprint⟩, hnonce⟩ := checkRequest_ok hrequest
  obtain ⟨⟨hnb, hna⟩, hprofile⟩ := tsaCertificateIsUsable_ok husable
  exact ⟨⟨sd, attrs, tst, certificate, hash⟩,
    { message := hsd
      content := htype
      tst := htst
      algorithm := halg
      imprint := himprint
      nonce := hnonce
      attrs := hattrs
      digestAttr := parseAttributes_digest hattrs.parsed
      hash := hhash
      digest := hdigest
      embedded := selectSignerCertificate_ok hselect
      signature := hdispatch
      ess := verifySigningCertificateAttribute_ok hess
      notBefore := hnb
      notAfter := hna
      profile := hprofile
      signer := rfl
      time := rfl }⟩

/-! ## §5. The response -/

/-- **The response is exactly a status and the token**: the outer SEQUENCE is the whole
    response, the granted status is its first field, and the token is all that is left. -/
structure Grants (response token : Bytes) : Prop where
  parts : ∃ outer statusInfo status,
    parseExpect 0x30 response = .ok outer ∧ outer.size = response.length ∧
    BerTlvAny.parse outer.value = .ok statusInfo ∧ statusInfo.tag = 0x30 ∧
    parseStatusInfo statusInfo.value = .ok status ∧ (status = 0 ∨ status = 1) ∧
    outer.value.drop statusInfo.size = token

theorem tokenAfterStatus_some {afterStatus token : Bytes}
    (h : tokenAfterStatus afterStatus = .ok (some token)) : token = afterStatus := by
  unfold tokenAfterStatus at h
  split at h
  · exact absurd h (by simp)
  · simp only [bind_eq_ok, mapError_eq_ok_iff, ensure_eq_ok, pure_eq_ok, decide_eq_true_eq,
      Option.some.injEq] at h
    obtain ⟨t, _, _, hsize, htake⟩ := h
    rw [← htake, hsize, List.take_length]

theorem readResponse_grants {response token : Bytes} {status : Nat}
    (h : readResponse response = .ok (status, some token)) (hs : status = 0 ∨ status = 1) :
    Grants response token := by
  simp only [readResponse, bind_eq_ok, mapError_eq_ok_iff, ensure_eq_ok, pure_eq_ok,
    decide_eq_true_eq] at h
  obtain ⟨outer, houter, _, hsize, info, hinfo, _, htag, status', hstatus, tok, htok, heq⟩ := h
  injection heq with h1 h2
  rw [h2] at htok
  exact ⟨outer, info, status', houter, hsize, hinfo, htag, hstatus, h1 ▸ hs,
    (tokenAfterStatus_some htok).symm⟩

/-! ## §6. The nonce -/

/-- The value of an INTEGER field. -/
def integerValue : Except BerError BerTlvAny → Option Bytes
  | .ok t => if t.tag = 0x02 then some t.value else none
  | .error _ => none

/-- The nonce INTEGER of a TimeStampReq, after version and imprint. -/
def requestedNonce (req : Bytes) : Option Bytes :=
  match parseExpect 0x30 req with
  | .ok outer => ((children outer.value).drop 2).findSome? integerValue
  | .error _ => none

/-- The nonce INTEGER of a TSTInfo, after its five mandatory fields. -/
def tstNonce (econtent : Bytes) : Option Bytes :=
  match parseExpect 0x30 econtent with
  | .ok outer => ((children outer.value).drop 5).findSome? integerValue
  | .error _ => none

/-- The nonce INTEGER that a response carries. -/
def responseNonce (response : Bytes) : Option Bytes :=
  match readResponse response with
  | .ok (_, some token) =>
    match SignedData.parse token with
    | .ok sd => tstNonce sd.econtentDer
    | .error _ => none
  | _ => none

/-- **The INTEGER in the request is `positive_integer` of the nonce.** -/
theorem request_nonce {digest nonce req : Bytes} {algorithm : DigestAlgorithm}
    {requestCertificate : Bool}
    (h : request digest algorithm (some nonce) requestCertificate = some req) :
    requestedNonce req = some (positiveInteger nonce) := by
  simp only [request, Option.bind_eq_bind, Option.bind_eq_some_iff] at h
  obtain ⟨algId, -, hashed, -, version, hversion, nonceTlv, hnonce, certReq, -, imprint, himprint,
    hreq⟩ := h
  unfold requestedNonce
  have hparse := parseExpect_tlv (by decide) hreq
  rw [show (0x30 : UInt8).toNat = 0x30 from rfl] at hparse
  rw [hparse]
  dsimp only
  rw [List.append_assoc, List.append_assoc, children_tlv (by decide) hversion,
    children_tlv (by decide) himprint, children_tlv (by decide) hnonce]
  simp [integerValue]

/-- What the optional field at the front was. -/
theorem takeOptional_ok {α : Type} {tag : Nat} {default a : α}
    {read : Bytes → Except TimestampError α} {fields rest : List BerTlvAny}
    (h : takeOptional tag default read fields = .ok (a, rest)) :
    (fields = rest ∧ a = default) ∨
      ∃ field, fields = field :: rest ∧ field.tag = tag ∧ read field.value = .ok a := by
  cases fields with
  | nil =>
    injection h with h
    injection h with h1 h2
    exact .inl ⟨h2, h1.symm⟩
  | cons field fs =>
    unfold takeOptional at h
    dsimp only at h
    by_cases htag : field.tag = tag
    · rw [if_pos htag] at h
      simp only [bind_eq_ok, pure_eq_ok] at h
      obtain ⟨a', ha', heq⟩ := h
      injection heq with h1 h2
      exact .inr ⟨field, by rw [h2], htag, h1 ▸ ha'⟩
    · rw [if_neg htag] at h
      injection h with h
      injection h with h1 h2
      exact .inl ⟨h2, h1.symm⟩

/-- An optional field that is no INTEGER. -/
theorem takeOptional_integer {α : Type} {tag : Nat} {default a : α}
    {read : Bytes → Except TimestampError α} {fields rest : List BerTlvAny}
    (h : takeOptional tag default read fields = .ok (a, rest)) (htag : tag ≠ 0x02) :
    (fields.map Except.ok).findSome? integerValue =
      (rest.map Except.ok).findSome? integerValue := by
  rcases takeOptional_ok h with ⟨hrest, -⟩ | ⟨field, hfields, hfield, -⟩
  · rw [hrest]
  · rw [hfields]
    simp [integerValue, hfield, htag]

/-- **The parsed nonce is the INTEGER among the optional fields.** -/
theorem parseTstInfoOptionalFields_nonce {E : Externals} {optional : List BerTlvAny}
    {nonce : Option Bytes} {tsa : Option TsaName}
    (h : parseTstInfoOptionalFields E optional = .ok (nonce, tsa)) :
    (optional.map Except.ok).findSome? integerValue = nonce := by
  simp only [parseTstInfoOptionalFields, bind_eq_ok, ensure_eq_ok, pure_eq_ok] at h
  obtain ⟨⟨_, r1⟩, h1, ⟨_, r2⟩, h2, ⟨n, r3⟩, h3, ⟨t, r4⟩, h4, ⟨_, r5⟩, h5, _, hempty, heq⟩ := h
  dsimp only at h2 h3 h4 h5 hempty heq
  injection heq with hn ht
  have hnil : r5 = [] := by simpa using hempty
  have htail : (r3.map Except.ok).findSome? integerValue = none := by
    rw [takeOptional_integer h4 (by decide), takeOptional_integer h5 (by decide), hnil]
    rfl
  rw [takeOptional_integer h1 (by decide), takeOptional_integer h2 (by decide)]
  rcases takeOptional_ok h3 with ⟨hrest, hnone⟩ | ⟨field, hfields, hfield, hread⟩
  · rw [hrest, htail, ← hn, hnone]
  · simp only [parseNonce, bind_eq_ok, pure_eq_ok] at hread
    obtain ⟨_, _, hvalue⟩ := hread
    rw [hfields, ← hn, ← hvalue]
    simp [integerValue, hfield]

theorem nextAny_ok {missing : String} {fields rest : Fields} {t : BerTlvAny}
    (h : nextAny missing fields = .ok (t, rest)) : fields = .ok t :: rest := by
  unfold nextAny at h
  split at h
  · injection h with h
    injection h with h1 h2
    rw [h1, h2]
  · exact absurd h (by simp [malformed])

theorem nextTagged_ok {tag : Nat} {missing : String} {fields rest : Fields} {t : BerTlvAny}
    (h : nextTagged tag missing fields = .ok (t, rest)) : fields = .ok t :: rest := by
  simp only [nextTagged, bind_eq_ok, pure_eq_ok] at h
  obtain ⟨⟨t', rest'⟩, hnext, _, _, heq⟩ := h
  injection heq with h1 h2
  rw [← h1, ← h2]
  exact nextAny_ok hnext

theorem parseTstInfo_nonce {E : Externals} {econtent : Bytes} {tst : TstInfo}
    (h : parseTstInfo E econtent = .ok tst) : tstNonce econtent = tst.nonce := by
  simp only [parseTstInfo, bind_eq_ok, mapError_eq_ok_iff, pure_eq_ok] at h
  obtain ⟨outer, houter, _, _, ⟨v, f1⟩, h1, _, _, ⟨p, f2⟩, h2, _, _, ⟨i, f3⟩, h3, ⟨_, _⟩, _,
    ⟨s, f4⟩, h4, _, _, ⟨g, f5⟩, h5, _, _, _, _, optional, hopt, ⟨nonce, tsa⟩, hfields, rfl⟩ := h
  dsimp only at h2 h3 h4 h5 hopt
  unfold tstNonce
  rw [houter]
  dsimp only
  rw [nextTagged_ok h1, nextTagged_ok h2, nextTagged_ok h3, nextTagged_ok h4, nextAny_ok h5,
    collect_eq_ok.mp hopt]
  exact parseTstInfoOptionalFields_nonce hfields

/-- `positive_integer` writes canonical non-negative INTEGERs, so the reader takes them. -/
theorem parseNonce_positiveInteger (nonce : Bytes) :
    parseNonce (positiveInteger nonce) = .ok (some (positiveInteger nonce)) := by
  have hcanon : nonnegativeDerInteger (positiveInteger nonce) = true := by
    unfold positiveInteger
    cases hm : nonce.dropWhile (fun b => b = 0) with
    | nil => rfl
    | cons first rest =>
      have hne : first ≠ 0 := by
        have hhead := List.head?_dropWhile_not (fun b : UInt8 => decide (b = 0)) nonce
        rw [hm] at hhead
        simpa using hhead
      dsimp only
      by_cases htop : first &&& 0x80 = 0
      · rw [if_neg (by simpa using htop)]
        cases rest with
        | nil => simp [nonnegativeDerInteger, htop]
        | cons second rest => simp [nonnegativeDerInteger, htop, hne]
      · rw [if_pos htop]
        simp [nonnegativeDerInteger, htop]
  unfold parseNonce
  rw [hcanon]
  rfl

/-- An echoed nonce: the check of the request passes or fails for its imprint alone. -/
theorem checkRequest_echo {tst : TstInfo} {expectedDigest nonce : Bytes}
    {expectedAlgorithm : DigestAlgorithm} (h : tst.nonce = some (positiveInteger nonce)) :
    checkRequest tst expectedDigest expectedAlgorithm (some nonce) =
      checkRequest tst expectedDigest expectedAlgorithm none := by
  simp [checkRequest, h, ensure, pure, Except.pure]

theorem checkBinding_echo {E : Externals} {S : SignatureChecks} {token expectedDigest : Bytes}
    {nonce : Bytes} {expectedAlgorithm : DigestAlgorithm}
    (h : ∀ sd, SignedData.parse token = .ok sd →
      tstNonce sd.econtentDer = some (positiveInteger nonce)) :
    checkBinding E S token expectedDigest expectedAlgorithm (some nonce) =
      checkBinding E S token expectedDigest expectedAlgorithm none := by
  unfold checkBinding
  cases hsd : SignedData.parse token with
  | error e => rfl
  | ok sd =>
    cases htst : parseTstInfo E sd.econtentDer with
    | error e =>
      simp only [Except.mapError, bind, Except.bind, htst]
    | ok tst =>
      have hn : tst.nonce = some (positiveInteger nonce) := by
        rw [← parseTstInfo_nonce htst]
        exact h sd hsd
      simp only [Except.mapError, bind, Except.bind, htst, checkRequest_echo hn]

theorem verifiedToken_echo {E : Externals} {S : SignatureChecks} {response expectedDigest : Bytes}
    {nonce : Bytes} {expectedAlgorithm : DigestAlgorithm}
    (h : responseNonce response = some (positiveInteger nonce)) :
    verifiedToken E S response expectedDigest expectedAlgorithm (some nonce) =
      verifiedToken E S response expectedDigest expectedAlgorithm none := by
  unfold verifiedToken
  cases hr : readResponse response with
  | error e => rfl
  | ok r =>
    obtain ⟨status, token⟩ := r
    cases token with
    | none => rfl
    | some token =>
      have hecho : ∀ sd, SignedData.parse token = .ok sd →
          tstNonce sd.econtentDer = some (positiveInteger nonce) := by
        intro sd hsd
        unfold responseNonce at h
        rw [hr] at h
        dsimp only at h
        rw [hsd] at h
        exact h
      simp only [bind, Except.bind, okOr, checkBinding_echo hecho]

/-! ## §7. The contract -/

/-- **Time-stamp tokens.**  A token that is returned was granted in a response with nothing
    else in it, and all its parts bind each other, the request and the reported time.  And
    a response that echoes the INTEGER which `request` wrote is judged as if no nonce had
    been asked for, and that INTEGER is one the reader accepts. -/
theorem verifiedToken_contract (E : Externals) (S : SignatureChecks)
    (response expectedDigest : Bytes) (expectedAlgorithm : DigestAlgorithm)
    (nonce : Option Bytes) :
    (∀ v, verifiedToken E S response expectedDigest expectedAlgorithm nonce = .ok v →
      Grants response v.token ∧
      ∃ p, Binds E S v.token expectedDigest expectedAlgorithm nonce
          ⟨v.signerCertificate, v.embeddedCertificates, v.generatedAt⟩ p ∧
        ∀ n requestCertificate req, nonce = some n →
          request expectedDigest expectedAlgorithm (some n) requestCertificate = some req →
          p.tst.nonce = requestedNonce req) ∧
    (∀ n requestCertificate req,
      request expectedDigest expectedAlgorithm (some n) requestCertificate = some req →
      responseNonce response = requestedNonce req →
      verifiedToken E S response expectedDigest expectedAlgorithm (some n) =
        verifiedToken E S response expectedDigest expectedAlgorithm none ∧
      ∀ v, requestedNonce req = some v → parseNonce v = .ok (some v)) := by
  refine ⟨?_, ?_⟩
  · intro v h
    simp only [verifiedToken, bind_eq_ok, ensure_eq_ok, okOr_eq_ok, pure_eq_ok] at h
    obtain ⟨⟨status, token⟩, hread, _, hstatus, tok, htok, binding, hbinding, rfl⟩ := h
    dsimp only at hstatus htok
    rw [htok] at hread
    have hgranted : status = 0 ∨ status = 1 := by simpa using hstatus
    obtain ⟨p, hp⟩ := checkBinding_sound hbinding
    refine ⟨readResponse_grants hread hgranted, p, hp, ?_⟩
    intro n c req hn hreq
    rw [request_nonce hreq]
    exact hp.nonce n hn
  · intro n c req hreq hecho
    rw [request_nonce hreq] at hecho ⊢
    refine ⟨verifiedToken_echo hecho, ?_⟩
    intro v hv
    injection hv with hv
    rw [← hv]
    exact parseNonce_positiveInteger n

/-! ## §8. A token

A response of 721 octets: granted, the digest of a document under SHA-256, nonce 0x9F17,
2026-06-01 12:00, signed by a P-256 certificate for time stamping alone. -/

def sampleResponse : Bytes :=
  octets 32 0x308202cd3003020100308202c406092a864886f70d010702a08202b5308202b1 ++
  octets 32 0x020103310d300b06096086480165030402013065060b2a864886f70d01091001 ++
  octets 32 0x04a0560454305202010106032a0304302f300b06096086480165030402010420 ++
  octets 32 0x43cc23fa52b87b4cc1d02b5b114154151d6adddb17c9fddc06b027fa99e24008 ++
  octets 32 0x020107180f32303236303630313132303030305a0203009f17a0820128308201 ++
  octets 32 0x243081cba003020102020151300a06082a8648ce3d040302300e310c300a0603 ++
  octets 32 0x5504030c03545341301e170d3236303130313030303030305a170d3237303130 ++
  octets 32 0x313030303030305a300e310c300a06035504030c035453413059301306072a86 ++
  octets 32 0x48ce3d020106082a8648ce3d030107034200042c3db0dc61012865866f42ebff ++
  octets 32 0x657562e04917e331f4a764c2912de5585d9b13df4bcf56d045dcc35cf73a7463 ++
  octets 32 0x3575123657db07c9bbc0616a3c7e959a59caf0a31a301830160603551d250101 ++
  octets 32 0xff040c300a06082b06010505070308300a06082a8648ce3d0403020348003045 ++
  octets 32 0x02205adb1c195cf6cc36e8f33ce877a0a91298fe5f8b0a72d7c1475e429c866d ++
  octets 32 0x4c63022100c4daa5ecdbeae9c022121cfb3cc6399958e67c6a30f2f9bb38511d ++
  octets 32 0x157c9e77fe31820108308201040201013013300e310c300a06035504030c0354 ++
  octets 32 0x5341020151300b0609608648016503040201a08186301a06092a864886f70d01 ++
  octets 32 0x0903310d060b2a864886f70d0109100104302f06092a864886f70d0109043122 ++
  octets 32 0x04205084fc40eec84cb1d8931ae95236bd6dc6f8a007e98558f5a2dd275b97b7 ++
  octets 32 0x11103037060b2a864886f70d010910022f312830263024302204208fd445814e ++
  octets 32 0x631e88bbb22f315c2676957d05c848b114a7515c2695a4049c3d36300a06082a ++
  octets 32 0x8648ce3d04030204483046022100e3b694ad346d909011339015366f4c7511dd ++
  octets 32 0x468b301e254e0504d01f0da907fb0221008c363379a9981019e13c208b5c5d57 ++
  octets 17 0x4b02d46354930e443a36116bd954dbb7c6

/-- `n` octets of the response from offset `i`. -/
def responseSlice (i n : Nat) : Bytes := (sampleResponse.drop i).take n

/-- The digests of the TSTInfo, the signed attributes and the certificate, and the
    signature. -/
def sampleExternals : Externals :=
  Externals.sample []
    [(responseSlice 69 84, octets 32 0x5084fc40eec84cb1d8931ae95236bd6dc6f8a007e98558f5a2dd275b97b71110),
      (rebuiltSet (responseSlice 501 134),
        octets 32 0x0c9fa845c6a48409c13a147d92cd257dc6dccc7804b51d017b31a63af64e0461),
      (responseSlice 157 296,
        octets 32 0x8fd445814e631e88bbb22f315c2676957d05c848b114a7515c2695a4049c3d36)] []

def sampleChecks : SignatureChecks where
  rsaKey _ := none
  rsaVerify _ _ _ _ := .error "bad signature"
  ecKey der := sampleExternals.extractEcPubkey der
  ecVerify key signature digest :=
    if key.point = octets 65 0x042c3db0dc61012865866f42ebff657562e04917e331f4a764c2912de5585d9b13df4bcf56d045dcc35cf73a74633575123657db07c9bbc0616a3c7e959a59caf0 ∧
        signature = responseSlice 649 72 ∧
        digest = octets 32 0x0c9fa845c6a48409c13a147d92cd257dc6dccc7804b51d017b31a63af64e0461 then .ok ()
    else .error "bad signature"

/-- The nonce as it was drawn, with a leading zero octet. -/
def sampleNonce : Bytes := [0x00, 0x9F, 0x17]

/-- **The sample token is accepted**, and bound to its request. -/
theorem sampleToken_bound :
    ∃ v, verifiedToken sampleExternals sampleChecks sampleResponse (responseSlice 96 32) .sha256
        (some sampleNonce) = .ok v ∧
      v.generatedAt = civilSeconds [50, 48, 50, 54, 48, 54, 48, 49, 49, 50, 48, 48, 48, 48] ∧
      Grants sampleResponse v.token ∧
      ∃ p, Binds sampleExternals sampleChecks v.token (responseSlice 96 32) .sha256
        (some sampleNonce) ⟨v.signerCertificate, v.embeddedCertificates, v.generatedAt⟩ p := by
  have hok : verifiedToken sampleExternals sampleChecks sampleResponse (responseSlice 96 32)
      .sha256 (some sampleNonce) = .ok ⟨responseSlice 9 712, responseSlice 157 296,
        [responseSlice 157 296],
        civilSeconds [50, 48, 50, 54, 48, 54, 48, 49, 49, 50, 48, 48, 48, 48]⟩ := by
    decide +kernel
  obtain ⟨hgrants, p, hp, -⟩ := (verifiedToken_contract sampleExternals sampleChecks
    sampleResponse (responseSlice 96 32) .sha256 (some sampleNonce)).1 _ hok
  exact ⟨_, hok, rfl, hgrants, p, hp⟩

end Timestamp

end RefineId
