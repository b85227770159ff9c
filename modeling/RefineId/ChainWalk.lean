/-
  RefineId.ChainWalk — building a certificate path to an approved anchor.
  ════════════════════════════════════════════════════════════════════════════

  `crates/refineid-doc-sign/src/material.rs`: `verify_chain_with`, `walk` and
  `collect_chains_seeded_with`.  Both loops climb from a leaf to one of the anchors the
  caller approved.  At every step the issuer is looked for among the anchors, the
  candidates gathered so far and, last, the addresses the certificate itself names; the
  answers of the provider behind those addresses are arbitrary.

  `AcceptedPath` says what a path is for, position by position, and names nothing of
  the search.

  Main results:
    • `validateDirectIssuerForPath_ok`   : what one accepted link guarantees.
    • `findIssuer_reaches`               : the search only asks its provider.
    • `climbInv_link`, `climbInv_anchor` : the invariant of both loops.
    • `certificatePath_sound`            : both loops end; a returned path is an accepted
                                           path, and material is returned only along
                                           accepted paths with a status answer for every
                                           certificate below the anchor.
-/
import RefineId.CheckResponse
import RefineId.Lib.Loop

namespace RefineId

open Ocsp PathExtensions

/-- `ValidationMaterial`. -/
structure ValidationMaterial where
  certificates : List Bytes := []
  ocspResponses : List Bytes := []
  crls : List Bytes := []
  deriving Repr, DecidableEq

namespace ChainWalk

/-! ## §1. The evidence provider -/

/-- `MAX_DEPTH`. -/
def maxDepth : Nat := 8

/-- `MAX_CERTIFICATE_ADDRESSES`. -/
def maxCertificateAddresses : Nat := 3

/-- `StatusEvidence`. -/
inductive StatusEvidence where
  | ocsp (der : Bytes)
  | crl (der : Bytes)
  deriving Repr, DecidableEq

/-- `trait EvidenceProvider`, with the state `σ` of the world behind it: the same question
    may be answered differently every time it is asked. -/
structure EvidenceProvider (σ Uri : Type) where
  fetchIssuer : Uri → σ → Except String Bytes × σ
  status : NoncePolicy → Certificate → Certificate → DateTime → σ →
    Except MaterialError StatusEvidence × σ

/-- `s'` is a state the provider can be in after some questions asked in `s`. -/
inductive EvidenceProvider.Reaches {σ Uri : Type} (P : EvidenceProvider σ Uri) (s : σ) : σ → Prop
  | here : P.Reaches s s
  | fetch {s' : σ} (url : Uri) (h : P.Reaches s s') : P.Reaches s (P.fetchIssuer url s').2
  | status {s' : σ} (policy : NoncePolicy) (subject issuer : Certificate) (time : DateTime)
      (h : P.Reaches s s') : P.Reaches s (P.status policy subject issuer time s').2

/-- `refineid_lib_core::text::Uri`: `from_utf8` followed by `Uri::parse`, and `Display`. -/
structure UriCrate (Uri : Type) where
  parse : Bytes → Option Uri
  display : Uri → String

/-- `Collection`. -/
structure Collection where
  material : ValidationMaterial := {}
  candidates : List Bytes := []
  deriving Repr, DecidableEq

/-- Append unless it is already held. -/
def pushNew (der : Bytes) (held : List Bytes) : List Bytes :=
  if held.contains der then held else held ++ [der]

/-- `push_candidate`. -/
def pushCandidate (c : Collection) (der : Bytes) : Collection :=
  { c with candidates := pushNew der c.candidates }

/-- `push_certificate`. -/
def pushCertificate (m : ValidationMaterial) (der : Bytes) : ValidationMaterial :=
  { m with certificates := pushNew der m.certificates }

/-- `push_status`. -/
def pushStatus (m : ValidationMaterial) : StatusEvidence → ValidationMaterial
  | .ocsp der => { m with ocspResponses := pushNew der m.ocspResponses }
  | .crl der => { m with crls := pushNew der m.crls }

/-- `is_approved_anchor`. -/
def isApprovedAnchor (der : Bytes) (anchors : List Bytes) : Bool := anchors.contains der

section
variable (E : Externals)

/-! ## §2. One link -/

/-- `validate_certificate_time`. -/
def validateCertificateTime (cert : Certificate) (time : DateTime) : Except MaterialError Unit :=
  if time < cert.notBefore then
    .error (.certificate ("not valid before " ++ E.showDateTime cert.notBefore))
  else if time > cert.notAfter then
    .error (.certificate ("expired at " ++ E.showDateTime cert.notAfter))
  else .ok ()

/-- `enforce_non_anchor_extension_policy`. -/
def enforceNonAnchorExtensionPolicy (profile : PathExtensionProfile) : Except String Unit :=
  if profile.nameConstraintsPresent then
    .error ("non-anchor certificate carries Name Constraints, which this path builder " ++
      "cannot enforce")
  else if profile.basicConstraints.ca && profile.extendedKeyUsagePresent
      && (!profile.timeStampingExtendedKeyUsage || profile.otherExtendedKeyUsagePresent) then
    .error ("non-anchor CA carries Extended Key Usage other than exclusive Time Stamping, " ++
      "whose purpose constraints this generic path builder cannot enforce")
  else .ok ()

/-- `validate_path_extensions`. -/
def validatePathExtensions (cert : Certificate) : Except String PathExtensionProfile := do
  let profile ← (pathExtensionProfile (cert.extensions.getD [])).mapError (·.display)
  enforceNonAnchorExtensionPolicy profile
  return profile

/-- `validate_non_anchor_extensions`. -/
def validateNonAnchorExtensions (cert : Certificate) :
    Except MaterialError PathExtensionProfile :=
  (validatePathExtensions cert).mapError .certificate

/-- `enforce_path_length`. -/
def enforcePathLength (pathLen : Option Nat) (subordinateCaCount : Nat) :
    Except MaterialError Unit :=
  match pathLen with
  | none => .ok ()
  | some limit =>
    if subordinateCaCount > limit then
      .error (.invalidIssuer ("issuer Basic Constraints pathLen permits at most " ++
        toString limit ++ " subordinate CA certificates, found " ++ toString subordinateCaCount))
    else .ok ()

/-- `validate_issuing_certificate`. -/
def validateIssuingCertificate (issuer : Certificate) (time : DateTime)
    (subordinateCaCount : Nat) : Except MaterialError PathExtensionProfile := do
  (validateCertificateTime E issuer time).mapError fun e => MaterialError.invalidIssuer e.display
  let profile ← (validatePathExtensions issuer).mapError MaterialError.invalidIssuer
  if !profile.basicConstraints.present || !profile.basicConstraints.ca then
    .error (.invalidIssuer "issuer is not a CA")
  if !profile.basicConstraints.critical then
    .error (.invalidIssuer "issuer Basic Constraints is not critical")
  enforcePathLength profile.basicConstraints.pathLen subordinateCaCount
  if !(profile.keyUsage.any fun usage => usage.keyUsage.keyCertSign) then
    .error (.invalidIssuer "issuer has no Key Usage permitting certificate signing")
  return profile

/-- The branch of `validate_direct_issuer_for_path` for an issuer that is no anchor. -/
def validateSubordinateIssuer (subject issuer : Certificate) (time : DateTime)
    (subordinateCaCount : Nat) : Except MaterialError Unit := do
  let issuerProfile ← validateIssuingCertificate E issuer time subordinateCaCount
  if issuerProfile.timeStampingExtendedKeyUsage then
    let subjectProfile ← (validateNonAnchorExtensions subject).mapError fun e =>
      MaterialError.invalidIssuer ("subject extensions: " ++ e.display)
    if !subjectProfile.timeStampingExtendedKeyUsage then
      .error (.invalidIssuer ("issuer restricted to Time Stamping cannot issue certificate " ++
        "without Time Stamping EKU"))

/-- `validate_direct_issuer_for_path`. -/
def validateDirectIssuerForPath (subject issuer : Certificate) (time : DateTime)
    (subordinateCaCount : Nat) (issuerIsAnchor : Bool) : Except MaterialError Unit := do
  if subject.issuer ≠ issuer.subject then
    .error (.invalidIssuer "subject issuer name does not equal candidate subject name")
  if issuerIsAnchor then
    (validateCertificateTime E issuer time).mapError fun e => MaterialError.invalidIssuer e.display
  else validateSubordinateIssuer E subject issuer time subordinateCaCount
  (subject.verifySignedBy E issuer).mapError fun e =>
    MaterialError.invalidIssuer ("certificate signature: " ++ e.display)

/-! ## §3. Looking for the issuer -/

variable {σ Uri : Type} [DecidableEq Uri] (U : UriCrate Uri) (P : EvidenceProvider σ Uri)

/-- One AccessDescription of the Authority Information Access extension: the address,
    when it is a URI under `accessMethod`. -/
def accessLocation (accessMethod der : Bytes) : Option Uri := do
  let (tag, body) ← E.anyFromDer der
  guard (tag = 0x30)
  guard (E.sliceReader body)
  let (oidTlv, fields) ← E.tlvBytes body
  let (oidTag, oid) ← E.anyFromDer oidTlv
  guard (oidTag = 0x06 ∧ oid = accessMethod)
  let (locTlv, _) ← E.tlvBytes fields
  let (locTag, loc) ← E.anyFromDer locTlv
  guard (locTag = 0x86)
  U.parse loc

/-- `X509Helpers::aia_urls_for`: a description that does not read is skipped, a failed
    read of the list ends it. -/
def aiaUrlsFor (extensions accessMethod : Bytes) : List Uri :=
  match (findExtensionWithMeta E extensions Oid.authorityInfoAccess).bind
      fun m => E.anyFromDer m.value with
  | none => []
  | some (tag, body) =>
    if tag ≠ 0x30 || !E.sliceReader body then []
    else (elements E body).filterMap fun item => item.bind (accessLocation E U accessMethod)

/-- `extract_ca_issuers_urls`. -/
def extractCaIssuersUrls (extensions : Bytes) : List Uri :=
  aiaUrlsFor E U extensions Oid.adCaIssuers

/-- `bounded_certificate_addresses`: the first few different ones. -/
def boundedCertificateAddresses (addresses : List Uri) : List Uri :=
  go addresses []
where
  go : List Uri → List Uri → List Uri
    | [], selected => selected
    | address :: rest, selected =>
      if selected.contains address then go rest selected
      else if (selected ++ [address]).length = maxCertificateAddresses then selected ++ [address]
      else go rest (selected ++ [address])

/-- A local candidate `find_issuer` settles on. -/
def isLocalIssuer (subject : Certificate) (time : DateTime) (subordinateCaCount : Nat)
    (anchors : List Bytes) (der : Bytes) : Bool :=
  der ≠ subject.rawDer &&
    match Certificate.fromDer E der with
    | .error _ => false
    | .ok candidate =>
      (validateDirectIssuerForPath E subject candidate time subordinateCaCount
        (isApprovedAnchor der anchors)).isOk

/-- The loop of `find_issuer` over the addresses. -/
def fetchLoop (subject : Certificate) (time : DateTime) (subordinateCaCount : Nat)
    (anchors : List Bytes) : List Uri → List String → σ → Except MaterialError Bytes × σ
  | [], failures, s => (.error (.noIssuer ("; ".intercalate failures)), s)
  | url :: urls, failures, s =>
    match P.fetchIssuer url s with
    | (.error why, s') =>
      fetchLoop subject time subordinateCaCount anchors urls
        (failures ++ [U.display url ++ ": " ++ why]) s'
    | (.ok der, s') =>
      match Certificate.fromDer E der with
      | .error why =>
        fetchLoop subject time subordinateCaCount anchors urls
          (failures ++ [U.display url ++ ": parse: " ++ why.display]) s'
      | .ok candidate =>
        match validateDirectIssuerForPath E subject candidate time subordinateCaCount
            (isApprovedAnchor der anchors) with
        | .ok () => (.ok der, s')
        | .error why =>
          fetchLoop subject time subordinateCaCount anchors urls
            (failures ++ [U.display url ++ ": " ++ why.display]) s'

/-- `find_issuer`: anchors first, then candidates, then the addresses. -/
def findIssuer (subject : Certificate) (time : DateTime) (subordinateCaCount : Nat)
    (anchors candidates : List Bytes) (s : σ) : Except MaterialError Bytes × σ :=
  match (anchors ++ candidates).find?
      (isLocalIssuer E subject time subordinateCaCount anchors) with
  | some der => (.ok der, s)
  | none =>
    match subject.extensions with
    | none =>
      (.error (.noIssuer "certificate has no extensions and is not an approved anchor"), s)
    | some extensions =>
      match boundedCertificateAddresses (extractCaIssuersUrls E U extensions) with
      | [] => (.error (.noIssuer
          "certificate has no CA Issuers address and is not an approved anchor"), s)
      | url :: urls => fetchLoop E U P subject time subordinateCaCount anchors (url :: urls) [] s

/-! ## §4. The climb -/

/-- `WalkGuard::enter` on the visited certificates. -/
def enter (visited : List Bytes) (der : Bytes) : Except MaterialError (List Bytes) :=
  if visited.contains der then .error .chainCycle
  else if visited.length ≥ maxDepth then .error .chainTooDeep
  else .ok (visited ++ [der])

/-- What the two loops have in common: the certificate they stand on, the certificates
    behind it, and the count of subordinate CAs among these. -/
structure Climb (σ : Type) where
  current : Bytes
  visited : List Bytes := []
  subordinateCaCount : Nat := 0
  collection : Collection
  world : σ

/-- A link found: the certificate the loop stands on, its issuer, and the climb with
    the current certificate behind it. -/
structure Link (σ : Type) where
  subject : Certificate
  issuer : Certificate
  issuerDer : Bytes
  climb : Climb σ

/-- The count after the current certificate: self-issued ones do not count against a
    path length. -/
def countCurrent (profile : PathExtensionProfile) (cert : Certificate) (count : Nat) : Nat :=
  if profile.basicConstraints.ca && cert.issuer ≠ cert.subject then count + 1 else count

/-- The part of a turn from `find_issuer` to the second check of the same link. -/
def climbLink (time : DateTime) (anchors : List Bytes) (c : Climb σ) (cert : Certificate)
    (visited : List Bytes) (count : Nat) : Except MaterialError (Link σ) × σ :=
  match findIssuer E U P cert time count anchors c.collection.candidates c.world with
  | (.error e, w) => (.error e, w)
  | (.ok issuerDer, w) =>
    match Certificate.fromDer E issuerDer with
    | .error e => (.error (.invalidIssuer ("parse: " ++ e.display)), w)
    | .ok issuer =>
      match validateDirectIssuerForPath E cert issuer time count
          (isApprovedAnchor issuerDer anchors) with
      | .error e => (.error e, w)
      | .ok () => (.ok ⟨cert, issuer, issuerDer,
          { current := issuerDer, visited, subordinateCaCount := count,
            collection := c.collection, world := w }⟩, w)

/-- The part of a turn that both loops share, up to the second
    `validate_direct_issuer_for_path`: `inl` when the loop stands on an anchor. -/
def climbStep (time : DateTime) (anchors : List Bytes) (c : Climb σ) :
    Except MaterialError (List Bytes ⊕ Link σ) × σ :=
  match Certificate.fromDer E c.current with
  | .error e => (.error (.certificate ("path certificate parse: " ++ e.display)), c.world)
  | .ok cert =>
    match validateCertificateTime E cert time with
    | .error e => (.error e, c.world)
    | .ok () =>
      match enter c.visited c.current with
      | .error e => (.error e, c.world)
      | .ok visited =>
        if isApprovedAnchor c.current anchors then (.ok (.inl visited), c.world)
        else match validateNonAnchorExtensions cert with
          | .error e => (.error e, c.world)
          | .ok profile =>
            match climbLink E U P time anchors c cert visited
                (countCurrent profile cert c.subordinateCaCount) with
            | (.error e, w) => (.error e, w)
            | (.ok link, w) => (.ok (.inr link), w)

/-- One turn of `verify_chain_with`; its `path` is the guard's list. -/
def verifyTurn (time : DateTime) (anchors : List Bytes) (c : Climb σ) :
    Lib.Turn (Climb σ) (Except MaterialError (List Bytes) × σ) :=
  match climbStep E U P time anchors c with
  | (.error e, w) => .done (.error e, w)
  | (.ok (.inl path), w) => .done (.ok path, w)
  | (.ok (.inr link), _) =>
    .next { link.climb with collection := pushCandidate link.climb.collection link.issuerDer }

/-- `verify_chain_with`. -/
def verifyChainWith (leaf : Bytes) (time : DateTime) (anchors : List Bytes)
    (collection : Collection) (s : σ) : Option (Except MaterialError (List Bytes) × σ) :=
  if anchors.isEmpty then some (.error .noTrustAnchor, s)
  else Lib.loop (verifyTurn E U P time anchors) (maxDepth + 1)
    { current := leaf, collection, world := s }

/-- `ChainStart`. -/
structure ChainStart where
  leafDer : Bytes
  referenceTime : DateTime
  approvedAnchorDers : List Bytes
  noncePolicy : NoncePolicy
  includeLeaf : Bool
  includeAnchor : Bool
  deriving Repr, DecidableEq

/-- One turn of `walk`. -/
def walkTurn (start : ChainStart) (evidenceTime : DateTime) (c : Climb σ) :
    Lib.Turn (Climb σ) (Except MaterialError Collection × σ) :=
  match climbStep E U P start.referenceTime start.approvedAnchorDers c with
  | (.error e, w) => .done (.error e, w)
  | (.ok (.inl _), w) =>
    let material := if start.includeAnchor then pushCertificate c.collection.material c.current
      else c.collection.material
    .done (.ok { c.collection with material }, w)
  | (.ok (.inr link), w) =>
    match P.status start.noncePolicy link.subject link.issuer evidenceTime w with
    | (.error e, w') => .done (.error e, w')
    | (.ok evidence, w') =>
      let material := pushStatus link.climb.collection.material evidence
      let collection := pushCandidate { link.climb.collection with material } link.issuerDer
      let collection :=
        if !isApprovedAnchor link.issuerDer start.approvedAnchorDers || start.includeAnchor then
          { collection with material := pushCertificate collection.material link.issuerDer }
        else collection
      .next { link.climb with collection, world := w' }

/-- `walk`. -/
def walk (start : ChainStart) (evidenceTime : DateTime) (collection : Collection) (s : σ) :
    Option (Except MaterialError Collection × σ) :=
  if start.approvedAnchorDers.isEmpty then some (.error .noTrustAnchor, s)
  else
    let collection :=
      if start.includeLeaf then
        { collection with material := pushCertificate collection.material start.leafDer }
      else collection
    Lib.loop (walkTurn E U P start evidenceTime) (maxDepth + 1)
      { current := start.leafDer, collection, world := s }

/-- The second loop of `collect_chains_seeded_with`: the first failed walk ends it. -/
def walkAll (evidenceTime : DateTime) : List ChainStart → Collection → σ →
    Option (Except MaterialError Collection × σ)
  | [], collection, s => some (.ok collection, s)
  | start :: starts, collection, s =>
    match walk E U P start evidenceTime collection s with
    | none => none
    | some (.error e, s') => some (.error e, s')
    | some (.ok collection', s') => walkAll evidenceTime starts collection' s'

/-- `collect_chains_seeded_with`. -/
def collectChainsSeededWith (starts : List ChainStart) (candidateDers : List Bytes)
    (evidenceTime : DateTime) (s : σ) : Option (Except MaterialError ValidationMaterial × σ) :=
  if starts.isEmpty then some (.error .noChain, s)
  else
    let collection := (starts.map ChainStart.leafDer ++ candidateDers).foldl pushCandidate {}
    (walkAll E U P evidenceTime starts collection s).map fun r =>
      (r.1.map Collection.material, r.2)

/-! ## §5. What a path is for -/

/-- `cert` is valid at `time`. -/
def ValidAt (time : Nat) (cert : Certificate) : Prop :=
  cert.notBefore ≤ time ∧ time ≤ cert.notAfter

/-- `issuer` is named by `cert` and its key signed it. -/
def SignedBy (cert issuer : Certificate) : Prop :=
  cert.issuer = issuer.subject ∧ cert.verifySignedBy E issuer = .ok ()

/-- A CA certificate that is not self-issued: what a path length counts. -/
def isSubordinateCa (cert : Certificate) : Bool :=
  match pathExtensionProfile (cert.extensions.getD []) with
  | .ok profile => profile.basicConstraints.ca && cert.issuer ≠ cert.subject
  | .error _ => false

/-- Number of non-self-issued CA certificates in a stretch of a path. -/
def subordinateCas (certs : List Certificate) : Nat := certs.countP isSubordinateCa

/-- **An issuing certificate below the anchor**: a CA by critical Basic Constraints, with
    keyCertSign, room for the `below` subordinate CAs under it, and no critical extension
    (nor Name Constraints) the path builder cannot apply. -/
structure IssuingCa (cert : Certificate) (below : Nat) : Prop where
  profile : ∃ profile, pathExtensionProfile (cert.extensions.getD []) = .ok profile ∧
    profile.basicConstraints.present = true ∧ profile.basicConstraints.ca = true ∧
    profile.basicConstraints.critical = true ∧
    (∃ usage, profile.keyUsage = some usage ∧ usage.keyUsage.keyCertSign = true) ∧
    (∀ limit, profile.basicConstraints.pathLen = some limit → below ≤ limit) ∧
    profile.nameConstraintsPresent = false
  extensions : ∃ es, AcceptedExtensions (Ber.children (cert.extensions.getD [])) es

/-- **An accepted path**, from the leaf up to an approved anchor. -/
structure AcceptedPath (leaf : Bytes) (anchors : List Bytes) (time : Nat) (path : List Bytes)
    (certs : List Certificate) : Prop where
  parsed : path.map (Certificate.fromDer E) = certs.map .ok
  head : path.head? = some leaf
  last : ∃ anchor ∈ anchors, path.getLast? = some anchor
  noEarlierAnchor : ∀ der ∈ path.dropLast, der ∉ anchors
  nodup : path.Nodup
  depth : path.length ≤ maxDepth
  links : certs.IsChain (SignedBy E)
  valid : ∀ cert ∈ certs, ValidAt time cert
  issuing : ∀ below cert above, certs = below ++ cert :: above → below ≠ [] → above ≠ [] →
    IssuingCa cert (subordinateCas below)

/-! ## §6. What one accepted link guarantees -/

variable {E}

theorem validateCertificateTime_ok {cert : Certificate} {time : DateTime}
    (h : validateCertificateTime E cert time = .ok ()) : ValidAt time cert := by
  unfold validateCertificateTime at h
  split at h
  · exact absurd h (by simp)
  next h1 =>
    split at h
    · exact absurd h (by simp)
    next h2 => exact ⟨Nat.le_of_not_lt h1, Nat.le_of_not_lt h2⟩

theorem mapError_eq_ok {ε ε' α : Type} {x : Except ε α} {f : ε → ε'} {a : α}
    (h : x.mapError f = .ok a) : x = .ok a := by
  cases x with
  | error e => simp [Except.mapError] at h
  | ok b => simpa [Except.mapError] using h

theorem validatePathExtensions_ok {cert : Certificate} {profile : PathExtensionProfile}
    (h : validatePathExtensions cert = .ok profile) :
    pathExtensionProfile (cert.extensions.getD []) = .ok profile ∧
      profile.nameConstraintsPresent = false := by
  simp only [validatePathExtensions, bind, Except.bind] at h
  split at h
  · exact absurd h (by simp)
  next p hp =>
    split at h
    · exact absurd h (by simp)
    next u hpol =>
      obtain rfl : p = profile := by simpa [pure, Except.pure] using h
      refine ⟨mapError_eq_ok hp, ?_⟩
      unfold enforceNonAnchorExtensionPolicy at hpol
      split at hpol
      · exact absurd hpol (by simp)
      next hnc => simpa using hnc

theorem enforcePathLength_ok {pathLen : Option Nat} {count limit : Nat}
    (h : enforcePathLength pathLen count = .ok ()) (hl : pathLen = some limit) :
    count ≤ limit := by
  subst hl
  simp only [enforcePathLength] at h
  split at h
  · exact absurd h (by simp)
  · omega

theorem validateIssuingCertificate_ok {issuer : Certificate} {time : DateTime} {count : Nat}
    {profile : PathExtensionProfile}
    (h : validateIssuingCertificate E issuer time count = .ok profile) :
    ValidAt time issuer ∧ IssuingCa issuer count := by
  simp only [validateIssuingCertificate, bind, Except.bind] at h
  split at h
  · exact absurd h (by simp)
  next u hTime =>
  split at h
  · exact absurd h (by simp)
  next p hp =>
  obtain ⟨hProfile, hNc⟩ := validatePathExtensions_ok (mapError_eq_ok hp)
  split at h
  · exact absurd h (by simp)
  next hCa =>
  split at h
  · exact absurd h (by simp)
  next hCrit =>
  split at h
  · exact absurd h (by simp)
  next u' hLen =>
  split at h
  · exact absurd h (by simp)
  next hSign =>
  cases u'
  refine ⟨validateCertificateTime_ok (mapError_eq_ok hTime), ?_, ?_⟩
  · refine ⟨p, hProfile, ?_, ?_, ?_, ?_, fun limit hl => enforcePathLength_ok hLen hl, hNc⟩
    · by_contra hc
      simp [hc] at hCa
    · by_contra hc
      simp [hc] at hCa
    · by_contra hc
      simp [hc] at hCrit
    · cases hu : p.keyUsage with
      | none => simp [hu] at hSign
      | some usage => exact ⟨usage, rfl, by simpa [hu] using hSign⟩
  · obtain ⟨es, hes, -⟩ := pathExtensionProfile_accepted hProfile
    exact ⟨es, hes⟩

theorem validateSubordinateIssuer_ok {subject issuer : Certificate} {time : DateTime}
    {count : Nat} (h : validateSubordinateIssuer E subject issuer time count = .ok ()) :
    ValidAt time issuer ∧ IssuingCa issuer count := by
  simp only [validateSubordinateIssuer, bind, Except.bind] at h
  split at h
  · exact absurd h (by simp)
  next p hp => exact validateIssuingCertificate_ok hp

/-- **One accepted link.** -/
theorem validateDirectIssuerForPath_ok {subject issuer : Certificate} {time : DateTime}
    {count : Nat} {issuerIsAnchor : Bool}
    (h : validateDirectIssuerForPath E subject issuer time count issuerIsAnchor = .ok ()) :
    SignedBy E subject issuer ∧ ValidAt time issuer ∧
      (issuerIsAnchor = false → IssuingCa issuer count) := by
  simp only [validateDirectIssuerForPath, bind, Except.bind] at h
  split at h
  · exact absurd h (by simp)
  next hName =>
  have hName : subject.issuer = issuer.subject := by
    by_contra hne
    simp [hne] at hName
  cases issuerIsAnchor with
  | true =>
    simp only [if_true] at h
    split at h
    · exact absurd h (by simp)
    next u hTime =>
      cases u
      exact ⟨⟨hName, mapError_eq_ok h⟩, validateCertificateTime_ok (mapError_eq_ok hTime), by simp⟩
  | false =>
    simp only [Bool.false_eq_true, if_false] at h
    split at h
    · exact absurd h (by simp)
    next u hSub =>
      cases u
      obtain ⟨hTime, hCa⟩ := validateSubordinateIssuer_ok hSub
      exact ⟨⟨hName, mapError_eq_ok h⟩, hTime, fun _ => hCa⟩

/-! ## §7. What the search and the climb return -/

omit [DecidableEq Uri] in
theorem reaches_trans {s₀ s₁ s₂ : σ} (h₁ : P.Reaches s₀ s₁) (h₂ : P.Reaches s₁ s₂) :
    P.Reaches s₀ s₂ := by
  induction h₂ with
  | here => exact h₁
  | fetch url _ ih => exact .fetch url ih
  | status policy subject issuer time _ ih => exact .status policy subject issuer time ih

omit [DecidableEq Uri] in
theorem fetchLoop_reaches {subject : Certificate} {time : DateTime} {count : Nat}
    {anchors : List Bytes} (urls : List Uri) (failures : List String) (s : σ) :
    P.Reaches s (fetchLoop E U P subject time count anchors urls failures s).2 := by
  induction urls generalizing failures s with
  | nil => exact .here
  | cons url urls ih =>
    have hStep : P.Reaches s (P.fetchIssuer url s).2 := .fetch url .here
    simp only [fetchLoop]
    split
    next why s' hf =>
      rw [hf] at hStep
      exact reaches_trans P hStep (ih _ _)
    next der s' hf =>
      rw [hf] at hStep
      split
      · exact reaches_trans P hStep (ih _ _)
      · split
        · exact hStep
        · exact reaches_trans P hStep (ih _ _)

theorem findIssuer_reaches (subject : Certificate) (time : DateTime) (count : Nat)
    (anchors candidates : List Bytes) (s : σ) :
    P.Reaches s (findIssuer E U P subject time count anchors candidates s).2 := by
  unfold findIssuer
  split
  · exact .here
  · split
    · exact .here
    · split
      · exact .here
      · exact fetchLoop_reaches U P _ _ s

/-- `WalkGuard::enter` lets in a certificate not seen before, up to the depth bound. -/
theorem enter_ok {visited visited' : List Bytes} {der : Bytes}
    (h : enter visited der = .ok visited') :
    der ∉ visited ∧ visited.length < maxDepth ∧ visited' = visited ++ [der] := by
  unfold enter at h
  split at h
  · exact absurd h (by simp)
  next hSeen =>
    split at h
    · exact absurd h (by simp)
    next hLen =>
      injection h with h
      exact ⟨by simpa using hSeen, by omega, h.symm⟩

/-- What a turn knows about the certificate it stands on. -/
structure Entered (time : Nat) (c : Climb σ) (cert : Certificate) : Prop where
  parsed : Certificate.fromDer E c.current = .ok cert
  valid : ValidAt time cert
  fresh : c.current ∉ c.visited
  depth : c.visited.length < maxDepth

theorem climbStep_anchor {time : DateTime} {anchors : List Bytes} {c : Climb σ}
    {path : List Bytes} {w : σ} (h : climbStep E U P time anchors c = (.ok (.inl path), w)) :
    ∃ cert, Entered (E := E) time c cert ∧ c.current ∈ anchors ∧
      path = c.visited ++ [c.current] ∧ w = c.world := by
  unfold climbStep at h
  split at h
  · exact absurd h (by simp)
  next cert hParse =>
  split at h
  · exact absurd h (by simp)
  next hTime =>
  split at h
  · exact absurd h (by simp)
  next visited hEnter =>
  obtain ⟨hFresh, hDepth, rfl⟩ := enter_ok hEnter
  split at h
  next hAnchor =>
    obtain ⟨rfl, rfl⟩ : c.visited ++ [c.current] = path ∧ c.world = w := by simpa using h
    exact ⟨cert, ⟨hParse, validateCertificateTime_ok hTime, hFresh, hDepth⟩,
      by simpa [isApprovedAnchor] using hAnchor, rfl, rfl⟩
  · split at h
    · exact absurd h (by simp)
    · split at h <;> exact absurd h (by simp)

/-- **One link of a climb**, with everything it guarantees. -/
structure Linked (time : Nat) (anchors : List Bytes) (c : Climb σ) (link : Link σ) : Prop where
  entered : Entered (E := E) time c link.subject
  notAnchor : c.current ∉ anchors
  issuerParsed : Certificate.fromDer E link.issuerDer = .ok link.issuer
  signed : SignedBy E link.subject link.issuer
  issuerValid : ValidAt time link.issuer
  issuing : link.issuerDer ∉ anchors → IssuingCa link.issuer link.climb.subordinateCaCount
  current : link.climb.current = link.issuerDer
  visited : link.climb.visited = c.visited ++ [c.current]
  count : link.climb.subordinateCaCount =
    c.subordinateCaCount + if isSubordinateCa link.subject then 1 else 0
  collection : link.climb.collection = c.collection
  reaches : P.Reaches c.world link.climb.world

theorem climbStep_link {time : DateTime} {anchors : List Bytes} {c : Climb σ}
    {link : Link σ} {w : σ} (h : climbStep E U P time anchors c = (.ok (.inr link), w)) :
    Linked (E := E) P time anchors c link ∧ link.climb.world = w := by
  unfold climbStep at h
  split at h
  · exact absurd h (by simp)
  next cert hParse =>
  split at h
  · exact absurd h (by simp)
  next hTime =>
  split at h
  · exact absurd h (by simp)
  next visited hEnter =>
  obtain ⟨hFresh, hDepth, rfl⟩ := enter_ok hEnter
  split at h
  · exact absurd h (by simp)
  next hNotAnchor =>
  split at h
  · exact absurd h (by simp)
  next profile hProfile =>
  obtain ⟨hProf, -⟩ := validatePathExtensions_ok (mapError_eq_ok hProfile)
  split at h
  · exact absurd h (by simp)
  next link' w' hClimb =>
  obtain ⟨rfl, rfl⟩ : link' = link ∧ w' = w := by simpa using h
  clear h
  have hReach := findIssuer_reaches (E := E) U P cert time
    (countCurrent profile cert c.subordinateCaCount) anchors c.collection.candidates c.world
  unfold climbLink at hClimb
  split at hClimb
  · exact absurd hClimb (by simp)
  next issuerDer w'' hFind =>
  rw [hFind] at hReach
  split at hClimb
  · exact absurd hClimb (by simp)
  next issuer hIssuer =>
  split at hClimb
  · exact absurd hClimb (by simp)
  next hLink =>
  obtain ⟨hSigned, hValid, hCa⟩ := validateDirectIssuerForPath_ok hLink
  obtain ⟨rfl, rfl⟩ : _ = link' ∧ w'' = w' := by simpa using hClimb
  refine ⟨⟨⟨hParse, validateCertificateTime_ok hTime, hFresh, hDepth⟩, ?_, hIssuer, hSigned,
    hValid, ?_, rfl, rfl, ?_, rfl, hReach⟩, rfl⟩
  · simpa [isApprovedAnchor] using hNotAnchor
  · intro hNot
    exact hCa (by simpa [isApprovedAnchor] using hNot)
  · simp only [isSubordinateCa, hProf, countCurrent]
    split <;> rfl

/-! ## §8. The invariant of the climb -/

/-- What holds at the start of every turn, for the certificates `certs` behind the current
    one.  `R` is the relation kept between neighbours: at least `SignedBy`. -/
structure ClimbInv (E : Externals) (R : Certificate → Certificate → Prop) (leaf : Bytes)
    (anchors : List Bytes) (time : Nat) (c : Climb σ) (certs : List Certificate) : Prop where
  parsed : c.visited.map (Certificate.fromDer E) = certs.map .ok
  notAnchor : ∀ der ∈ c.visited, der ∉ anchors
  nodup : c.visited.Nodup
  depth : c.visited.length ≤ maxDepth
  links : certs.IsChain R
  valid : ∀ cert ∈ certs, ValidAt time cert
  issuing : ∀ below cert above, certs = below ++ cert :: above → below ≠ [] →
    IssuingCa cert (subordinateCas below)
  count : c.subordinateCaCount = subordinateCas certs
  head : (c.visited ++ [c.current]).head? = some leaf
  current : certs ≠ [] → ∃ issuer, Certificate.fromDer E c.current = .ok issuer ∧
    (∀ l ∈ certs.getLast?, R l issuer) ∧
    (c.current ∉ anchors → IssuingCa issuer (subordinateCas certs))

theorem climbInv_init {R : Certificate → Certificate → Prop} {leaf : Bytes}
    {anchors : List Bytes} {time : Nat} {c : Climb σ} (hCur : c.current = leaf)
    (hVis : c.visited = []) (hCount : c.subordinateCaCount = 0) :
    ClimbInv E R leaf anchors time c [] := by
  refine ⟨by simp [hVis], by simp [hVis], by simp [hVis], by simp [hVis], .nil, by simp, ?_,
    by simp [hCount, subordinateCas], by simp [hVis, hCur], by simp⟩
  intro below cert above h
  simp at h

theorem climbInv_mono {R R' : Certificate → Certificate → Prop} {leaf : Bytes}
    {anchors : List Bytes} {time : Nat} {c : Climb σ} {certs : List Certificate}
    (hR : ∀ a b, R a b → R' a b) (h : ClimbInv E R leaf anchors time c certs) :
    ClimbInv E R' leaf anchors time c certs := by
  refine ⟨h.parsed, h.notAnchor, h.nodup, h.depth, h.links.imp fun a b => hR a b, h.valid,
    h.issuing, h.count, h.head, ?_⟩
  intro hne
  obtain ⟨issuer, hParse, hLast, hCa⟩ := h.current hne
  exact ⟨issuer, hParse, fun l hl => hR _ _ (hLast l hl), hCa⟩

/-- The certificate a turn stands on continues the chain behind it. -/
theorem climbInv_extend {R : Certificate → Certificate → Prop} {leaf : Bytes}
    {anchors : List Bytes} {time : Nat} {c : Climb σ} {certs : List Certificate}
    {cert : Certificate} (h : ClimbInv E R leaf anchors time c certs)
    (hEnt : Entered (E := E) time c cert) :
    (c.visited ++ [c.current]).map (Certificate.fromDer E) = (certs ++ [cert]).map .ok ∧
      (c.visited ++ [c.current]).Nodup ∧ (c.visited ++ [c.current]).length ≤ maxDepth ∧
      (certs ++ [cert]).IsChain R ∧ ∀ x ∈ certs ++ [cert], ValidAt time x := by
  refine ⟨by simp [h.parsed, hEnt.parsed], ?_, ?_, ?_, ?_⟩
  · rw [List.nodup_append]
    refine ⟨h.nodup, by simp, ?_⟩
    intro a ha b hb
    rw [List.mem_singleton] at hb
    subst hb
    exact fun hab => hEnt.fresh (hab ▸ ha)
  · have := hEnt.depth
    simp only [List.length_append, List.length_singleton]
    omega
  · rw [List.isChain_append]
    refine ⟨h.links, List.isChain_singleton cert, ?_⟩
    intro l hl y hy
    obtain rfl : cert = y := by simpa using hy
    have hne : certs ≠ [] := by
      rintro rfl
      simp at hl
    obtain ⟨issuer, hParse, hLast, -⟩ := h.current hne
    obtain rfl : cert = issuer := by
      rw [hEnt.parsed] at hParse
      injection hParse
    exact hLast l hl
  · intro x hx
    rcases List.mem_append.mp hx with hx | hx
    · exact h.valid x hx
    · rw [List.mem_singleton.mp hx]
      exact hEnt.valid

omit [DecidableEq Uri] in
/-- **A link keeps the invariant.** -/
theorem climbInv_link {R : Certificate → Certificate → Prop} {leaf : Bytes}
    {anchors : List Bytes} {time : Nat} {c c' : Climb σ} {certs : List Certificate}
    {link : Link σ} (h : ClimbInv E R leaf anchors time c certs)
    (hLink : Linked (E := E) P time anchors c link) (hR : R link.subject link.issuer)
    (hCur : c'.current = link.climb.current) (hVis : c'.visited = link.climb.visited)
    (hCount : c'.subordinateCaCount = link.climb.subordinateCaCount) :
    ClimbInv E R leaf anchors time c' (certs ++ [link.subject]) := by
  obtain ⟨hParsed, hNodup, hDepth, hChain, hValid⟩ := climbInv_extend h hLink.entered
  have hNew : c'.subordinateCaCount = subordinateCas (certs ++ [link.subject]) := by
    rw [hCount, hLink.count, h.count]
    simp [subordinateCas, List.countP_append, List.countP_singleton]
  rw [hLink.current] at hCur
  rw [hLink.visited] at hVis
  refine ⟨hVis ▸ hParsed, ?_, hVis ▸ hNodup, hVis ▸ hDepth, hChain, hValid, ?_, hNew, ?_, ?_⟩
  · intro der hder
    rw [hVis] at hder
    rcases List.mem_append.mp hder with hder | hder
    · exact h.notAnchor der hder
    · rw [List.mem_singleton.mp hder]
      exact hLink.notAnchor
  · intro below cert above hsplit hne
    rcases List.eq_nil_or_concat above with rfl | ⟨above', x, rfl⟩
    · -- the newest certificate: the previous turn checked it as an issuer
      obtain ⟨rfl, hc⟩ := List.append_inj' hsplit rfl
      obtain rfl : link.subject = cert := by simpa using hc
      obtain ⟨issuer, hParse, -, hCa⟩ := h.current hne
      obtain rfl : link.subject = issuer := by
        rw [hLink.entered.parsed] at hParse
        injection hParse
      exact hCa hLink.notAnchor
    · have h2 : certs ++ [link.subject] = (below ++ cert :: above') ++ [x] := by simpa using hsplit
      exact h.issuing below cert above' (List.append_inj' h2 rfl).1 hne
  · rw [hVis, List.head?_append, h.head]
    rfl
  · intro _
    refine ⟨link.issuer, hCur ▸ hLink.issuerParsed, ?_, ?_⟩
    · intro l hl
      obtain rfl : link.subject = l := by simpa using hl
      exact hR
    · intro hNot
      rw [← hNew, hCount]
      exact hLink.issuing (hCur ▸ hNot)

/-- **Standing on an anchor**, the certificates behind make an accepted path. -/
theorem climbInv_anchor {R : Certificate → Certificate → Prop} {leaf : Bytes}
    {anchors : List Bytes} {time : Nat} {c : Climb σ} {certs : List Certificate}
    {cert : Certificate} (hSigned : ∀ a b, R a b → SignedBy E a b)
    (h : ClimbInv E R leaf anchors time c certs) (hEnt : Entered (E := E) time c cert)
    (hAnchor : c.current ∈ anchors) :
    AcceptedPath E leaf anchors time (c.visited ++ [c.current]) (certs ++ [cert]) ∧
      (certs ++ [cert]).IsChain R := by
  obtain ⟨hParsed, hNodup, hDepth, hChain, hValid⟩ := climbInv_extend h hEnt
  refine ⟨⟨hParsed, h.head, ⟨c.current, hAnchor, by simp⟩, by simpa using h.notAnchor, hNodup,
    hDepth, hChain.imp fun a b => hSigned a b, hValid, ?_⟩, hChain⟩
  intro below x above hsplit hne hAbove
  rcases List.eq_nil_or_concat above with rfl | ⟨above', y, rfl⟩
  · exact absurd rfl hAbove
  · have h2 : certs ++ [cert] = (below ++ x :: above') ++ [y] := by simpa using hsplit
    exact h.issuing below x above' (List.append_inj' h2 rfl).1 hne

/-! ## §9. The loops end -/

/-- Certificates the guard still lets in. -/
def roomLeft (c : Climb σ) : Nat := maxDepth - c.visited.length

omit [DecidableEq Uri] in
theorem roomLeft_link {time : Nat} {anchors : List Bytes} {c c' : Climb σ} {link : Link σ}
    (hLink : Linked (E := E) P time anchors c link) (hVis : c'.visited = link.climb.visited) :
    roomLeft c' < roomLeft c := by
  have hd := hLink.entered.depth
  unfold roomLeft
  rw [hVis, hLink.visited]
  simp only [List.length_append, List.length_singleton]
  omega

theorem verifyTurn_next {time : DateTime} {anchors : List Bytes} {c c' : Climb σ}
    (h : verifyTurn E U P time anchors c = .next c') :
    ∃ link, Linked (E := E) P time anchors c link ∧ c'.current = link.climb.current ∧
      c'.visited = link.climb.visited ∧
      c'.subordinateCaCount = link.climb.subordinateCaCount := by
  unfold verifyTurn at h
  split at h
  · exact absurd h (by simp)
  · exact absurd h (by simp)
  next link w hStep =>
    injection h with h
    subst h
    exact ⟨link, (climbStep_link U P hStep).1, rfl, rfl, rfl⟩

/-- `verify_chain_with` ends, and a path it returns is an accepted path. -/
theorem verifyChainWith_sound (leaf : Bytes) (time : DateTime) (anchors : List Bytes)
    (collection : Collection) (s : σ) :
    ∃ result, verifyChainWith E U P leaf time anchors collection s = some result ∧
      ∀ path, result.1 = .ok path → ∃ certs, AcceptedPath E leaf anchors time path certs := by
  unfold verifyChainWith
  split
  · exact ⟨_, rfl, by simp⟩
  · obtain ⟨result, hResult⟩ : ∃ r, Lib.loop (verifyTurn E U P time anchors) (maxDepth + 1)
        { current := leaf, collection, world := s } = some r := by
      refine Lib.loop_isSome roomLeft ?_ (by simp [roomLeft])
      intro c c' hn
      obtain ⟨link, hLink, -, hVis, -⟩ := verifyTurn_next U P hn
      exact roomLeft_link P hLink hVis
    refine ⟨result, hResult, ?_⟩
    refine Lib.loop_post (fun c => ∃ certs, ClimbInv E (SignedBy E) leaf anchors time c certs)
      (fun r => ∀ path, r.1 = .ok path →
        ∃ certs, AcceptedPath E leaf anchors time path certs) ?_ ?_ ?_ hResult
    · rintro c c' ⟨certs, hInv⟩ hn
      obtain ⟨link, hLink, hCur, hVis, hCount⟩ := verifyTurn_next U P hn
      exact ⟨_, climbInv_link P hInv hLink hLink.signed hCur hVis hCount⟩
    · rintro c r ⟨certs, hInv⟩ hd path hPath
      unfold verifyTurn at hd
      split at hd
      · injection hd with hd
        subst hd
        exact absurd hPath (by simp)
      next path' w hStep =>
        injection hd with hd
        subst hd
        obtain ⟨cert, hEnt, hAnchor, rfl, -⟩ := climbStep_anchor U P hStep
        obtain rfl : c.visited ++ [c.current] = path := by simpa using hPath
        exact ⟨_, (climbInv_anchor (fun a b h => h) hInv hEnt hAnchor).1⟩
      · exact absurd hd (by simp)
    · exact ⟨[], climbInv_init rfl rfl rfl⟩

/-! ## §10. Material along a walk -/

/-- The material holds a status answer. -/
def Holds (m : ValidationMaterial) : StatusEvidence → Prop
  | .ocsp der => der ∈ m.ocspResponses
  | .crl der => der ∈ m.crls

/-- **Evidence for `cert`**: a status answer the provider gave about it, in a state the
    walk reached, is in the material. -/
def Evidenced (policy : NoncePolicy) (time : DateTime) (s : σ) (m : ValidationMaterial)
    (cert issuer : Certificate) : Prop :=
  ∃ s' evidence, P.Reaches s s' ∧ (P.status policy cert issuer time s').1 = .ok evidence ∧
    Holds m evidence

/-- Nothing is ever taken out of the material. -/
def Grows (m m' : ValidationMaterial) : Prop := ∀ evidence, Holds m evidence → Holds m' evidence

theorem mem_pushNew {der x : Bytes} {held : List Bytes} (h : x ∈ held ∨ x = der) :
    x ∈ pushNew der held := by
  unfold pushNew
  split
  next hc =>
    rcases h with h | rfl
    · exact h
    · simpa using hc
  · simpa using h

theorem grows_pushCertificate (m : ValidationMaterial) (der : Bytes) :
    Grows m (pushCertificate m der) := by
  intro evidence h
  cases evidence <;> exact h

theorem grows_pushStatus (m : ValidationMaterial) (new : StatusEvidence) :
    Grows m (pushStatus m new) := by
  intro evidence h
  cases new <;> cases evidence <;>
    first | exact h | exact mem_pushNew (.inl h)

theorem holds_pushStatus (m : ValidationMaterial) (new : StatusEvidence) :
    Holds (pushStatus m new) new := by
  cases new <;> exact mem_pushNew (.inr rfl)

omit [DecidableEq Uri] in
theorem evidenced_mono {policy : NoncePolicy} {time : DateTime} {s s₀ : σ}
    {m m' : ValidationMaterial} {cert issuer : Certificate} (hs : P.Reaches s₀ s)
    (hm : Grows m m') (h : Evidenced P policy time s m cert issuer) :
    Evidenced P policy time s₀ m' cert issuer := by
  obtain ⟨s', evidence, hReach, hStatus, hHolds⟩ := h
  exact ⟨s', evidence, reaches_trans P hs hReach, hStatus, hm evidence hHolds⟩

/-- What neighbours on a walk are to each other. -/
def WalkLink (E : Externals) (start : ChainStart) (time : DateTime) (s : σ)
    (m : ValidationMaterial) (cert issuer : Certificate) : Prop :=
  SignedBy E cert issuer ∧ Evidenced P start.noncePolicy time s m cert issuer

/-- The invariant of `walk`: the climb, with evidence for every certificate behind. -/
structure WalkInv (E : Externals) (start : ChainStart) (time : DateTime) (s : σ)
    (m : ValidationMaterial) (c : Climb σ) : Prop where
  climb : ∃ certs, ClimbInv E (WalkLink P E start time s c.collection.material) start.leafDer
    start.approvedAnchorDers start.referenceTime c certs
  reaches : P.Reaches s c.world
  grows : Grows m c.collection.material

/-- **One turn of `walk`** that goes on: a link, a status answer, and material that holds
    it. -/
theorem walkTurn_next {start : ChainStart} {time : DateTime} {c c' : Climb σ}
    (h : walkTurn E U P start time c = .next c') :
    ∃ link w evidence, Linked (E := E) P start.referenceTime start.approvedAnchorDers c link ∧
      link.climb.world = w ∧
      P.status start.noncePolicy link.subject link.issuer time w = (.ok evidence, c'.world) ∧
      c'.current = link.climb.current ∧ c'.visited = link.climb.visited ∧
      c'.subordinateCaCount = link.climb.subordinateCaCount ∧
      Grows c.collection.material c'.collection.material ∧
      Holds c'.collection.material evidence := by
  unfold walkTurn at h
  split at h
  · exact absurd h (by simp)
  · exact absurd h (by simp)
  next link w hStep =>
    obtain ⟨hLink, hw⟩ := climbStep_link U P hStep
    split at h
    · exact absurd h (by simp)
    next evidence w' hStatus =>
      injection h with h
      subst h
      refine ⟨link, w, evidence, hLink, hw, hStatus, rfl, rfl, rfl, ?_, ?_⟩
      · intro e he
        rw [← hLink.collection] at he
        have h1 := grows_pushStatus link.climb.collection.material evidence e he
        simp only
        split
        · exact grows_pushCertificate _ _ e h1
        · exact h1
      · have h1 := holds_pushStatus link.climb.collection.material evidence
        simp only
        split
        · exact grows_pushCertificate _ _ evidence h1
        · exact h1

theorem walkInv_next {start : ChainStart} {time : DateTime} {s : σ} {m : ValidationMaterial}
    {c c' : Climb σ} (hInv : WalkInv P E start time s m c)
    (h : walkTurn E U P start time c = .next c') : WalkInv P E start time s m c' := by
  obtain ⟨link, w, evidence, hLink, rfl, hStatus, hCur, hVis, hCount, hGrow, hHolds⟩ :=
    walkTurn_next U P h
  obtain ⟨certs, hClimb⟩ := hInv.climb
  have hReach : P.Reaches s link.climb.world := reaches_trans P hInv.reaches hLink.reaches
  have hMono : ∀ a b, WalkLink P E start time s c.collection.material a b →
      WalkLink P E start time s c'.collection.material a b :=
    fun a b hab => ⟨hab.1, evidenced_mono P .here hGrow hab.2⟩
  refine ⟨⟨_, climbInv_link P (climbInv_mono hMono hClimb) hLink ⟨hLink.signed, ?_⟩ hCur hVis
    hCount⟩, ?_, fun e he => hGrow e (hInv.grows e he)⟩
  · exact ⟨link.climb.world, evidence, hReach, by rw [hStatus], hHolds⟩
  · have := EvidenceProvider.Reaches.status start.noncePolicy link.subject link.issuer time hReach
    rwa [hStatus] at this

/-- An accepted path of `start` with evidence for every certificate below the anchor. -/
def WalkedPath (E : Externals) (start : ChainStart) (time : DateTime) (s : σ)
    (m : ValidationMaterial) : Prop :=
  ∃ path certs,
    AcceptedPath E start.leafDer start.approvedAnchorDers start.referenceTime path certs ∧
    certs.IsChain (Evidenced P start.noncePolicy time s m)

/-- `walk` ends, and it succeeds only along an accepted path with evidence. -/
theorem walk_sound (start : ChainStart) (time : DateTime) (collection : Collection) (s : σ) :
    ∃ result, walk E U P start time collection s = some result ∧
      ∀ collection', result.1 = .ok collection' →
        WalkedPath P E start time s collection'.material ∧
        Grows collection.material collection'.material ∧ P.Reaches s result.2 := by
  unfold walk
  split
  · exact ⟨_, rfl, by simp⟩
  · simp only
    generalize hc : (if start.includeLeaf then
        { collection with material := pushCertificate collection.material start.leafDer }
      else collection) = collection₀
    have hGrow₀ : Grows collection.material collection₀.material := by
      subst hc
      split
      · exact grows_pushCertificate _ _
      · exact fun e he => he
    obtain ⟨result, hResult⟩ : ∃ r, Lib.loop (walkTurn E U P start time) (maxDepth + 1)
        { current := start.leafDer, collection := collection₀, world := s } = some r := by
      refine Lib.loop_isSome roomLeft ?_ (by simp [roomLeft])
      intro c c' hn
      obtain ⟨link, _, _, hLink, -, -, -, hVis, -⟩ := walkTurn_next U P hn
      exact roomLeft_link P hLink hVis
    refine ⟨result, hResult, ?_⟩
    refine Lib.loop_post (WalkInv P E start time s collection₀.material)
      (fun r => ∀ collection', r.1 = .ok collection' →
        WalkedPath P E start time s collection'.material ∧
        Grows collection.material collection'.material ∧ P.Reaches s r.2) ?_ ?_ ?_ hResult
    · intro c c' hInv hn
      exact walkInv_next U P hInv hn
    · intro c r hInv hd collection' hOk
      unfold walkTurn at hd
      split at hd
      · injection hd with hd
        subst hd
        exact absurd hOk (by simp)
      next path w hStep =>
        injection hd with hd
        subst hd
        obtain ⟨cert, hEnt, hAnchor, rfl, rfl⟩ := climbStep_anchor U P hStep
        obtain ⟨certs, hClimb⟩ := hInv.climb
        obtain ⟨hPath, hChain⟩ := climbInv_anchor (fun a b hab => hab.1) hClimb hEnt hAnchor
        have hGrow : Grows c.collection.material collection'.material := by
          injection hOk with hOk
          subst hOk
          intro e he
          simp only
          split
          · exact grows_pushCertificate _ _ e he
          · exact he
        refine ⟨⟨_, _, hPath, hChain.imp fun a b hab => evidenced_mono P .here hGrow hab.2⟩,
          fun e he => hGrow e (hInv.grows e (hGrow₀ e he)), hInv.reaches⟩
      · split at hd
        · injection hd with hd
          subst hd
          exact absurd hOk (by simp)
        · exact absurd hd (by simp)
    · exact ⟨⟨[], climbInv_init rfl rfl rfl⟩, .here, fun e he => he⟩

theorem walkAll_sound (time : DateTime) (starts : List ChainStart) (collection : Collection)
    (s : σ) :
    ∃ result, walkAll E U P time starts collection s = some result ∧
      ∀ collection', result.1 = .ok collection' →
        (∀ start ∈ starts, WalkedPath P E start time s collection'.material) ∧
        Grows collection.material collection'.material := by
  induction starts generalizing collection s with
  | nil =>
    refine ⟨_, rfl, ?_⟩
    rintro collection' h
    injection h with h
    subst h
    exact ⟨by simp, fun e he => he⟩
  | cons start starts ih =>
    obtain ⟨⟨r, s'⟩, hWalk, hSound⟩ := walk_sound U P (E := E) start time collection s
    cases r with
    | error e =>
      refine ⟨(.error e, s'), by simp [walkAll, hWalk], ?_⟩
      intro collection' h
      exact absurd h (by simp)
    | ok collection₁ =>
      obtain ⟨hPath, hGrow, hReach⟩ := hSound collection₁ rfl
      obtain ⟨result, hRest, hAll⟩ := ih collection₁ s'
      refine ⟨result, by simp [walkAll, hWalk, hRest], ?_⟩
      intro collection' h
      obtain ⟨hPaths, hGrow'⟩ := hAll collection' h
      refine ⟨?_, fun e he => hGrow' e (hGrow e he)⟩
      intro start' hmem
      rcases List.mem_cons.mp hmem with rfl | hmem
      · obtain ⟨path, certs, hAcc, hChain⟩ := hPath
        exact ⟨path, certs, hAcc, hChain.imp fun a b hab => evidenced_mono P .here hGrow' hab⟩
      · obtain ⟨path, certs, hAcc, hChain⟩ := hPaths start' hmem
        exact ⟨path, certs, hAcc, hChain.imp fun a b hab => evidenced_mono P hReach
          (fun e he => he) hab⟩

/-- `collect_chains_seeded_with` ends, and it returns material only when every start has an
    accepted path with evidence in that material. -/
theorem collectChainsSeededWith_sound (starts : List ChainStart) (candidateDers : List Bytes)
    (time : DateTime) (s : σ) :
    ∃ result, collectChainsSeededWith E U P starts candidateDers time s = some result ∧
      ∀ material, result.1 = .ok material →
        ∀ start ∈ starts, WalkedPath P E start time s material := by
  unfold collectChainsSeededWith
  split
  · exact ⟨_, rfl, by simp⟩
  · simp only
    generalize (starts.map ChainStart.leafDer ++ candidateDers).foldl pushCandidate {} = collection
    obtain ⟨⟨r, s'⟩, hWalk, hSound⟩ := walkAll_sound U P (E := E) time starts collection s
    refine ⟨(r.map Collection.material, s'), by simp [hWalk], ?_⟩
    intro material h
    cases r with
    | error e => exact absurd h (by simp [Except.map])
    | ok collection' =>
      obtain rfl : collection'.material = material := by simpa [Except.map] using h
      exact (hSound collection' rfl).1

/-- **Certificate path soundness.**  For every leaf, candidates, anchors, reference time and
    provider, `verify_chain_with` ends and returns only accepted paths; and
    `collect_chains_seeded_with` ends, and returns material only when each start was walked
    along an accepted path with a status answer, held in that material, for every
    certificate of it below the anchor.  An error carries no material. -/
theorem certificatePath_sound (E : Externals) (U : UriCrate Uri) (P : EvidenceProvider σ Uri)
    (s : σ) :
    (∀ leaf time anchors collection,
      ∃ result, verifyChainWith E U P leaf time anchors collection s = some result ∧
        ∀ path, result.1 = .ok path →
          ∃ certs, AcceptedPath E leaf anchors time path certs) ∧
    (∀ starts candidateDers time,
      ∃ result, collectChainsSeededWith E U P starts candidateDers time s = some result ∧
        ∀ material, result.1 = .ok material →
          ∀ start ∈ starts, WalkedPath P E start time s material) :=
  ⟨fun leaf time anchors collection => verifyChainWith_sound U P leaf time anchors collection s,
    fun starts candidateDers time => collectChainsSeededWith_sound U P starts candidateDers time s⟩

end

end ChainWalk

end RefineId
