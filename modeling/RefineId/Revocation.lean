/-
  RefineId.Revocation — verdicts, evidence and the evidence cache.
  ════════════════════════════════════════════════════════════════════════════

  `crates/refineid-lib-core/src/revocation.rs`.  A verdict is read from a verified CRL
  or OCSP response, kept as `RevocationEvidence`, and stored by certificate identity in
  the in-memory `RevocationCache`.

  The cache is documented as sticky for revoked certificates: "a cert never
  un-revokes".  `insert`, however, replaces whatever is stored under the identity, so
  the law holds of a run exactly when no later insert brings a fresh non-revoked
  verdict for an identity already seen revoked.

  Main results:
    • `get_insert_other`     : an insert changes no other identity's answers.
    • `get_fresh`            : a non-revoked answer lies inside its window.
    • `run_entries_nodup`    : one entry per identity, in every state of a run.
    • `run_lawful_iff`       : the whole law holds along a run iff no insert un-revokes.
-/
import RefineId.Ocsp
import RefineId.Lib.Upsert

namespace RefineId

open Ocsp

namespace Revocation

variable {E : Externals}

/-! ## §1. Verdicts -/

/-- `InapplicableReason`. -/
inductive InapplicableReason where
  | crlIssuerMismatch
  | ocspNoEntryForSerial
  deriving Repr, DecidableEq

/-- `RevocationStatus`. -/
inductive RevocationStatus where
  | good
  | inapplicable (reason : InapplicableReason)
  | revoked (at_ : DateTime) (reason : Option CrlReason)
  | stale
  | unknown
  deriving Repr, DecidableEq

/-- `RevokedEntry` of a CRL. -/
structure RevokedEntry where
  serial : Bytes
  revocationDate : DateTime
  reason : Option CrlReason
  deriving Repr, DecidableEq

/-- `Crl`, with its revoked entries read. -/
structure Crl where
  tbsDer : Bytes
  issuer : Bytes
  thisUpdate : DateTime
  nextUpdate : Option DateTime
  entries : List RevokedEntry
  signatureAlgOid : Bytes
  signatureBits : Bytes
  deriving Repr, DecidableEq

variable (E) in
/-- `VerifiedCrl`: a list together with the key that verified it. -/
structure VerifiedCrl where
  crl : Crl
  signerSpki : Bytes
  verified : verifyTbsSignature E crl.tbsDer crl.signatureAlgOid crl.signatureBits signerSpki
    = .ok ()

/-- `now > next` for a `nextUpdate` that is present. -/
def isStale (nextUpdate : Option DateTime) (now : DateTime) : Bool :=
  match nextUpdate with
  | some next => next < now
  | none => false

/-- `check_against_crl`. -/
def checkAgainstCrl (cert : Certificate) (verified : VerifiedCrl E) (now : DateTime) :
    RevocationStatus :=
  if verified.crl.issuer ≠ cert.issuer then .inapplicable .crlIssuerMismatch
  else if isStale verified.crl.nextUpdate now then .stale
  else match verified.crl.entries.find? fun e => e.serial == cert.serialDer with
    | none => .good
    | some entry => .revoked entry.revocationDate entry.reason

/-- The entry of `response` with the serial of `cert`. -/
def entryForSerial (cert : Certificate) (response : VerifiedOcspResponse E) :
    Option SingleResponse :=
  response.singleResponses.find? fun r => r.certId.serial == cert.serialDer

/-- `check_against_ocsp_response`. -/
def checkAgainstOcspResponse (cert : Certificate) (response : VerifiedOcspResponse E)
    (now : DateTime) : RevocationStatus :=
  match entryForSerial cert response with
  | none => .inapplicable .ocspNoEntryForSerial
  | some single =>
    if isStale single.nextUpdate now then .stale
    else match single.status with
      | .good => .good
      | .revoked revokedAt reason => .revoked revokedAt reason
      | .unknown => .unknown

/-! ## §2. Evidence -/

/-- `RevocationSource`. -/
inductive RevocationSource where
  | ocsp
  | crl
  deriving Repr, DecidableEq

/-- `RevocationEvidence`. -/
structure RevocationEvidence where
  status : RevocationStatus
  source : RevocationSource
  checkedAt : DateTime
  validUntil : Option DateTime
  deriving Repr, DecidableEq

/-- `RevocationEvidence::from_ocsp`. -/
def RevocationEvidence.fromOcsp (cert : Certificate) (verified : VerifiedOcspResponse E)
    (now : DateTime) : RevocationEvidence :=
  { status := checkAgainstOcspResponse cert verified now
    source := .ocsp
    checkedAt := now
    validUntil := (entryForSerial cert verified).bind (·.nextUpdate) }

/-- `RevocationEvidence::is_fresh`. -/
def RevocationEvidence.isFresh (e : RevocationEvidence) (now : DateTime) : Bool :=
  match e.validUntil with
  | some validUntil => now ≤ validUntil
  | none => false

/-- `matches!(evidence.status, RevocationStatus::Revoked { .. })`. -/
def RevocationEvidence.isRevoked (e : RevocationEvidence) : Bool :=
  match e.status with
  | .revoked _ _ => true
  | _ => false

/-! ## §3. The cache

`x509_cert::name::Name::from_der` is given: a decoder of distinguished names into some
type with decidable equality. -/

section
variable {ν : Type} [DecidableEq ν] (nameFromDer : Bytes → Option ν)

/-- `CachedCertId`. -/
structure CachedCertId (ν : Type) where
  issuer : ν
  serial : Bytes
  deriving DecidableEq

/-- `CachedCertId::for_cert`. -/
def CachedCertId.forCert (cert : Certificate) : Option (CachedCertId ν) :=
  (nameFromDer cert.issuer).map fun issuer => ⟨issuer, cert.serialDer⟩

/-- `CacheEntry`. -/
structure CacheEntry (ν : Type) where
  id : CachedCertId ν
  evidence : RevocationEvidence
  deriving DecidableEq

/-- `RevocationCache`. -/
abbrev RevocationCache (ν : Type) := List (CacheEntry ν)

/-- `RevocationCache::insert`.  Overwriting the evidence of the entry with the same
    identity is overwriting that entry. -/
def RevocationCache.insert (cache : RevocationCache ν) (cert : Certificate)
    (evidence : RevocationEvidence) : RevocationCache ν :=
  match CachedCertId.forCert nameFromDer cert with
  | none => cache
  | some id => Lib.upsert CacheEntry.id ⟨id, evidence⟩ cache

/-- `RevocationCache::get`. -/
def RevocationCache.get (cache : RevocationCache ν) (cert : Certificate) (now : DateTime) :
    Option RevocationEvidence := do
  let id ← CachedCertId.forCert nameFromDer cert
  let entry ← Lib.lookup CacheEntry.id id cache
  if entry.evidence.isRevoked || entry.evidence.isFresh now then some entry.evidence else none

/-- The cache after a sequence of `insert` calls on an empty one, oldest first. -/
def run (ops : List (Certificate × RevocationEvidence)) : RevocationCache ν :=
  ops.foldl (fun cache op => RevocationCache.insert nameFromDer cache op.1 op.2) []

/-! ## §4. One call -/

variable {nameFromDer}

theorem get_eq_some_iff {cache : RevocationCache ν} {cert : Certificate} {now : DateTime}
    {evidence : RevocationEvidence} :
    RevocationCache.get nameFromDer cache cert now = some evidence ↔
      ∃ id, CachedCertId.forCert nameFromDer cert = some id ∧
        Lib.lookup CacheEntry.id id cache = some ⟨id, evidence⟩ ∧
        (evidence.isRevoked ∨ evidence.isFresh now) := by
  constructor
  · intro h
    simp only [RevocationCache.get, Option.bind_eq_bind, Option.bind_eq_some_iff] at h
    obtain ⟨id, hid, entry, hentry, h⟩ := h
    split at h
    next hUse =>
      injection h with h
      subst h
      obtain rfl : entry.id = id := Lib.lookup_key CacheEntry.id hentry
      exact ⟨entry.id, hid, hentry, by simpa using hUse⟩
    · exact absurd h (by simp)
  · intro hx
    obtain ⟨id, hid, hentry, hUse⟩ := hx
    simp only [RevocationCache.get, bind, Option.bind, hid, hentry]
    rw [if_pos (by simpa using hUse)]

/-- **An insert changes no other identity's answers.** -/
theorem get_insert_other {cache : RevocationCache ν} {cert other : Certificate}
    {evidence : RevocationEvidence} {now : DateTime}
    (h : CachedCertId.forCert nameFromDer other ≠ CachedCertId.forCert nameFromDer cert) :
    RevocationCache.get nameFromDer (RevocationCache.insert nameFromDer cache cert evidence)
        other now
      = RevocationCache.get nameFromDer cache other now := by
  unfold RevocationCache.insert
  cases hc : CachedCertId.forCert nameFromDer cert with
  | none => rfl
  | some id =>
    unfold RevocationCache.get
    cases ho : CachedCertId.forCert nameFromDer other with
    | none => rfl
    | some id' =>
      have hne : id ≠ id' := by
        rintro rfl
        exact h (ho.trans hc.symm)
      simp [Lib.lookup_upsert, hne]

/-- **A non-revoked answer lies inside its window.** -/
theorem get_fresh {cache : RevocationCache ν} {cert : Certificate} {now : DateTime}
    {evidence : RevocationEvidence}
    (h : RevocationCache.get nameFromDer cache cert now = some evidence)
    (hr : evidence.isRevoked = false) : ∃ next, evidence.validUntil = some next ∧ now ≤ next := by
  obtain ⟨id, -, -, hUse⟩ := get_eq_some_iff.mp h
  have hf : evidence.isFresh now = true := by simpa [hr] using hUse
  unfold RevocationEvidence.isFresh at hf
  split at hf
  next next hv => exact ⟨next, hv, by simpa using hf⟩
  · exact absurd hf (by simp)

/-! ## §5. Whole runs -/

/-- The entries a sequence of inserts writes: a certificate without an identity writes
    none. -/
def writes (nameFromDer : Bytes → Option ν) (ops : List (Certificate × RevocationEvidence)) :
    List (CacheEntry ν) :=
  ops.filterMap fun op => (CachedCertId.forCert nameFromDer op.1).map fun id => ⟨id, op.2⟩

theorem run_eq_upserts (ops : List (Certificate × RevocationEvidence)) :
    run nameFromDer ops = Lib.upserts CacheEntry.id (writes nameFromDer ops) [] := by
  suffices h : ∀ cache : RevocationCache ν,
      ops.foldl (fun cache op => RevocationCache.insert nameFromDer cache op.1 op.2) cache
        = Lib.upserts CacheEntry.id (writes nameFromDer ops) cache from h []
  induction ops with
  | nil => intro cache; rfl
  | cons op ops ih =>
    intro cache
    rw [List.foldl_cons, ih]
    unfold RevocationCache.insert writes
    cases hid : CachedCertId.forCert nameFromDer op.1 with
    | none => simp [hid]
    | some id => simp [hid, Lib.upserts]

theorem run_entries_nodup (ops : List (Certificate × RevocationEvidence)) :
    ((run nameFromDer ops).map CacheEntry.id).Nodup := by
  rw [run_eq_upserts]
  exact Lib.keys_upserts_nodup CacheEntry.id (writes nameFromDer ops)

variable (nameFromDer)

/-- **An un-revoking insert**: somewhere in the run revoked evidence goes in, and later,
    for the same identity, non-revoked evidence with a `nextUpdate`. -/
def Unrevokes (ops : List (Certificate × RevocationEvidence)) : Prop :=
  ∃ before cert evidence mid cert' evidence' after id,
    ops = before ++ (cert, evidence) :: mid ++ (cert', evidence') :: after ∧
    CachedCertId.forCert nameFromDer cert = some id ∧
    CachedCertId.forCert nameFromDer cert' = some id ∧
    evidence.isRevoked = true ∧ evidence'.isRevoked = false ∧ evidence'.validUntil.isSome

/-- The law of the cache in the state after `ops`. -/
structure Lawful (ops : List (Certificate × RevocationEvidence)) : Prop where
  /-- At most one entry per identity. -/
  unique : ((run nameFromDer ops).map CacheEntry.id).Nodup
  /-- The next insert, whatever it is, leaves every other identity's answers. -/
  frame : ∀ cert evidence other now,
    CachedCertId.forCert nameFromDer other ≠ CachedCertId.forCert nameFromDer cert →
      RevocationCache.get nameFromDer (run nameFromDer (ops ++ [(cert, evidence)])) other now
        = RevocationCache.get nameFromDer (run nameFromDer ops) other now
  /-- No non-revoked answer past its `nextUpdate`. -/
  fresh : ∀ cert now evidence,
    RevocationCache.get nameFromDer (run nameFromDer ops) cert now = some evidence →
      evidence.isRevoked = false → ∃ next, evidence.validUntil = some next ∧ now ≤ next
  /-- Revoked once, never answered as anything else. -/
  sticky : ∀ cert evidence, (cert, evidence) ∈ ops → evidence.isRevoked = true →
    ∀ other now answer,
      CachedCertId.forCert nameFromDer other = CachedCertId.forCert nameFromDer cert →
      RevocationCache.get nameFromDer (run nameFromDer ops) other now = some answer →
      answer.isRevoked = true

variable {nameFromDer}

omit [DecidableEq ν] in
theorem writes_eq_append {ops : List (Certificate × RevocationEvidence)}
    {before after : List (CacheEntry ν)} {e : CacheEntry ν}
    (h : writes nameFromDer ops = before ++ e :: after) :
    ∃ b cert a, ops = b ++ (cert, e.evidence) :: a ∧
      CachedCertId.forCert nameFromDer cert = some e.id ∧ writes nameFromDer a = after := by
  obtain ⟨b, rest, rfl, -, hrest⟩ := List.filterMap_eq_append_iff.mp h
  obtain ⟨skip, op, a, rfl, hskip, hop, ha⟩ := List.filterMap_eq_cons_iff.mp hrest
  obtain ⟨id, hid, hid'⟩ := Option.map_eq_some_iff.mp hop
  subst hid'
  exact ⟨b ++ skip, op.1, a, by simp, hid, ha⟩

omit [DecidableEq ν] in
theorem mem_writes {ops : List (Certificate × RevocationEvidence)} {cert : Certificate}
    {evidence : RevocationEvidence} {id : CachedCertId ν} (h : (cert, evidence) ∈ ops)
    (hid : CachedCertId.forCert nameFromDer cert = some id) :
    (⟨id, evidence⟩ : CacheEntry ν) ∈ writes nameFromDer ops :=
  List.mem_filterMap.mpr ⟨_, h, by simp [hid]⟩

/-- Without an un-revoking insert, a revoked identity is only ever answered as revoked. -/
theorem sticky_of_not_unrevokes {ops : List (Certificate × RevocationEvidence)}
    (h : ¬ Unrevokes nameFromDer ops) {cert other : Certificate}
    {evidence answer : RevocationEvidence} {now : DateTime}
    (hmem : (cert, evidence) ∈ ops) (hr : evidence.isRevoked = true)
    (hsame : CachedCertId.forCert nameFromDer other = CachedCertId.forCert nameFromDer cert)
    (hget : RevocationCache.get nameFromDer (run nameFromDer ops) other now = some answer) :
    answer.isRevoked = true := by
  by_contra hne
  have hfalse : answer.isRevoked = false := by simpa using hne
  obtain ⟨next, hnext, -⟩ := get_fresh hget hfalse
  obtain ⟨id, hid, hlook, -⟩ := get_eq_some_iff.mp hget
  rw [run_eq_upserts] at hlook
  -- the answer is the last insert under `id`, so the revoked one came before it
  obtain ⟨-, before, after, hsplit, hafter⟩ := (Lib.lookup_upserts CacheEntry.id).mp hlook
  obtain ⟨b, cert', a, rfl, hid', ha⟩ := writes_eq_append hsplit
  have hcert : CachedCertId.forCert nameFromDer cert = some id := hsame ▸ hid
  rcases List.mem_append.mp hmem with hb | hb
  · obtain ⟨b₁, b₂, rfl⟩ := List.append_of_mem hb
    exact h ⟨b₁, cert, evidence, b₂, cert', answer, a, id, by simp, hcert, hid', hr, hfalse,
      by simp [hnext]⟩
  · rcases List.mem_cons.mp hb with hb | hb
    · injection hb with _ hb
      subst hb
      exact absurd hr hne
    · have hw : (⟨id, evidence⟩ : CacheEntry ν) ∈ after := ha ▸ mem_writes hb hcert
      exact hafter _ hw rfl

omit [DecidableEq ν] in
theorem unrevokes_of_take {ops : List (Certificate × RevocationEvidence)} {n : Nat}
    (h : Unrevokes nameFromDer (ops.take n)) : Unrevokes nameFromDer ops := by
  obtain ⟨before, cert, ev, mid, cert', ev', after, id, hsplit, hrest⟩ := h
  refine ⟨before, cert, ev, mid, cert', ev', after ++ ops.drop n, id, ?_, hrest⟩
  calc ops = ops.take n ++ ops.drop n := (List.take_append_drop n ops).symm
    _ = _ := by rw [hsplit]; simp

/-- An un-revoking insert is seen by the very next `get`. -/
theorem get_after_unrevoking {ops : List (Certificate × RevocationEvidence)}
    {cert : Certificate} {evidence : RevocationEvidence} {id : CachedCertId ν} {next : DateTime}
    (hid : CachedCertId.forCert nameFromDer cert = some id)
    (hnext : evidence.validUntil = some next) :
    RevocationCache.get nameFromDer (run nameFromDer (ops ++ [(cert, evidence)])) cert next
      = some evidence := by
  refine get_eq_some_iff.mpr ⟨id, hid, ?_, .inr ?_⟩
  · rw [run_eq_upserts, Lib.lookup_upserts]
    refine ⟨rfl, writes nameFromDer ops, [], ?_, by simp⟩
    simp [writes, List.filterMap_append, hid]
  · simp [RevocationEvidence.isFresh, hnext]

/-- **The cache law, exactly**: along every sequence of inserts, the law holds in every
    state reached if and only if no insert un-revokes. -/
theorem run_lawful_iff (ops : List (Certificate × RevocationEvidence)) :
    (∀ n, Lawful nameFromDer (ops.take n)) ↔ ¬ Unrevokes nameFromDer ops := by
  constructor
  · rintro hLaw ⟨before, cert, ev, mid, cert', ev', after, id, rfl, hid, hid', hr, hr', hw⟩
    obtain ⟨next, hnext⟩ := Option.isSome_iff_exists.mp hw
    -- stop right after the un-revoking insert
    have hstate : (before ++ (cert, ev) :: mid ++ (cert', ev') :: after).take
        (before.length + mid.length + 2) = (before ++ (cert, ev) :: mid) ++ [(cert', ev')] := by
      have hlen : before.length + mid.length + 2
          = ((before ++ (cert, ev) :: mid) ++ [(cert', ev')]).length := by
        simp
        omega
      rw [hlen, show before ++ (cert, ev) :: mid ++ (cert', ev') :: after
        = ((before ++ (cert, ev) :: mid) ++ [(cert', ev')]) ++ after by simp]
      exact List.take_left
    have h := hLaw (before.length + mid.length + 2)
    rw [hstate] at h
    have hans := h.sticky cert ev (by simp) hr cert' next ev' (hid'.trans hid.symm)
      (get_after_unrevoking hid' hnext)
    exact absurd hans (by simp [hr'])
  · intro hNot n
    refine ⟨run_entries_nodup _, ?_, ?_, ?_⟩
    · intro cert evidence other now hne
      unfold run
      rw [List.foldl_append]
      exact get_insert_other hne
    · intro cert now evidence hget hr
      exact get_fresh hget hr
    · intro cert evidence hmem hr other now answer hsame hget
      exact sticky_of_not_unrevokes (fun h => hNot (unrevokes_of_take h)) hmem hr hsame hget

end

/-! ## §6. A run that un-revokes -/

/-- A certificate as the cache sees it, by issuer (`CN=CA`) and serial 0x42. -/
def sampleCertificate : Certificate :=
  { rawDer := [], tbsDer := [], serialDer := [0x42]
    issuer := octets 15 0x300d310b300906035504030c024341
    subject := octets 14 0x300c310a300806035504030c0153
    notBefore := 1767225600, notAfter := 1798761600
    spki := ⟨[], .ec .secp256r1, []⟩
    extensions := none, signatureAlgOid := Oid.ecdsaWithSha256, signatureBits := [] }

/-- Revoked for key compromise, by OCSP. -/
def revokedEvidence : RevocationEvidence :=
  ⟨.revoked 1780000000 (some .keyCompromise), .ocsp, 1780272000, some 1780358400⟩

/-- Good, by a CRL that has not caught up yet. -/
def lateGoodEvidence : RevocationEvidence :=
  ⟨.good, .crl, 1780275600, some 1780880400⟩

/-- **Not sticky as the code stands**: a good verdict inserted after a revoked one is
    what `get` answers. -/
theorem insert_unrevokes :
    revokedEvidence.isRevoked = true ∧ lateGoodEvidence.isRevoked = false ∧
      RevocationCache.get some
          (run some [(sampleCertificate, revokedEvidence), (sampleCertificate, lateGoodEvidence)])
          sampleCertificate 1780275600 = some lateGoodEvidence ∧
      ¬ Lawful some
          [(sampleCertificate, revokedEvidence), (sampleCertificate, lateGoodEvidence)] := by
  refine ⟨rfl, rfl, by decide, ?_⟩
  intro hLaw
  have h := hLaw.sticky sampleCertificate revokedEvidence (by simp) rfl sampleCertificate
    1780275600 lateGoodEvidence rfl (by decide)
  exact absurd h (by decide)

end Revocation

end RefineId
