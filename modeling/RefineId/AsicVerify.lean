/-
  RefineId.AsicVerify — the offline verifier of signed containers.
  ════════════════════════════════════════════════════════════════════════════

  `verify_bytes` of `crates/refineid-doc-sign/src/asic_verify.rs`.  Digests are checked
  once per reference of the manifest, against the first entry that has the reference's
  name; coverage is checked once per entry, by name alone.  The two agree on which entry
  a reference speaks about as long as no two entries answer to one reference.

  Main results:
    • `accepts_iff`        : what a report with `ok` says, check by check.
    • `verifyBytes_sound`  : an accepted container attests all its data exactly unless an
                             entry is shadowed by another one.
    • `attests_of_unambiguous` : no entry is shadowed when every reference names one entry.
-/
import RefineId.Cms
import RefineId.Manifest

namespace RefineId

namespace Asic

open Ber Lib Cms Cades

/-! ## §1. The report -/

/-- `VerifiedFile`. -/
structure VerifiedFile where
  name : Text
  algorithm : String
  digestOk : Bool
  detail : String
  deriving Repr, DecidableEq

/-- `VerifiedSignature`. -/
structure VerifiedSignature where
  signerCn : Option Text
  valid : Bool
  detail : String
  deriving Repr, DecidableEq

/-- `DocumentVerifyReport`. -/
structure DocumentVerifyReport where
  container : Text
  files : List VerifiedFile
  signatures : List VerifiedSignature
  ok : Bool
  deriving Repr, DecidableEq

/-- The crates around the verifier. -/
structure Surroundings where
  externals : Externals
  checks : SignatureChecks
  /-- `miniz_oxide::inflate::decompress_to_vec_with_limit`. -/
  inflate : Bytes → Nat → Except String Bytes
  /-- `Name::common_name` of a subject: a label of the report. -/
  commonName : Bytes → Option Text

/-- `Debug` of `BerError`. -/
def debugBerError : BerError → String
  | .empty => "Empty"
  | .truncated => "Truncated"
  | .unsupportedLengthForm => "UnsupportedLengthForm"
  | .unexpectedTag expected got =>
    "UnexpectedTag \x7b expected: " ++ toString expected ++ ", got: " ++ toString got ++ " \x7d"

/-- `Debug` of `X509Error`; the texts hold no character that is escaped. -/
def debugX509Error : X509Error → String
  | .ber e => "Ber(" ++ debugBerError e ++ ")"
  | .unexpectedStructure what => "UnexpectedStructure(\"" ++ what ++ "\")"
  | .invalidTime => "InvalidTime"
  | .invalidString => "InvalidString"
  | .berInContext e what => "BerInContext(" ++ debugBerError e ++ ", \"" ++ what ++ "\")"

/-! ## §2. Digests and coverage -/

/-- Data, as opposed to the container's furniture. -/
def ZipEntry.isData (entry : ZipEntry) : Bool :=
  !(entry.name = chars "mimetype" || (chars "META-INF/").isPrefixOf entry.name)

/-- A reference covers an entry by either spelling. -/
def ManifestRef.covers (reference : ManifestRef) (entry : ZipEntry) : Bool :=
  reference.uri = entry.name || reference.rawUri = entry.name

/-- The entry a reference is checked against. -/
def lookup (entries : List ZipEntry) (reference : ManifestRef) : Option ZipEntry :=
  (entries.find? fun entry => entry.name = reference.uri).or
    (entries.find? fun entry => entry.name = reference.rawUri)

variable (X : Surroundings)

/-- One reference of `check_digests`. -/
def checkDigest (entries : List ZipEntry) (reference : ManifestRef) : VerifiedFile :=
  match lookup entries reference with
  | none => ⟨reference.uri, reference.label, false, "missing from container"⟩
  | some entry =>
    if reference.algorithm.digest X.externals entry.data = reference.expected then
      ⟨reference.uri, reference.label, true, ""⟩
    else ⟨reference.uri, reference.label, false, "digest mismatch"⟩

/-- `check_digests`. -/
def checkDigests (entries : List ZipEntry) (refs : List ManifestRef) : List VerifiedFile :=
  refs.map (checkDigest X entries)

/-- `flag_uncovered_files`: what it adds to the report. -/
def flagUncoveredFiles (entries : List ZipEntry) (refs : List ManifestRef) : List VerifiedFile :=
  (entries.filter fun entry => entry.isData && !refs.any fun r => r.covers entry).map fun entry =>
    ⟨entry.name, "—", false, "not covered by manifest"⟩

/-! ## §3. Signatures -/

/-- `extension.ok()?.expect::<T>().ok()?`. -/
def expectField (tag : Nat) : Except BerError BerTlvAny → Option BerTlvAny
  | .error _ => none
  | .ok t => if t.tag = tag then some t else none

/-- The value field of an extension, after its critical flag if there is one. -/
def extensionValue : List (Except BerError BerTlvAny) → Option BerTlvAny
  | .ok next :: more =>
    if next.tag = 0x01 then more.head?.bind (expectField 0x04) else expectField 0x04 (.ok next)
  | _ => none

/-- One turn of `subject_key_id`: `none` ends it, `some none` goes on. -/
def keyIdOfExtension (extension : Except BerError BerTlvAny) : Option (Option Bytes) := do
  let extension ← expectField 0x30 extension
  let fields := children extension.value
  let oid ← fields.head?.bind (expectField 0x06)
  guard (Oid.wellFormed oid.value)
  if oid.value ≠ Oid.subjectKeyIdentifier then return none
  let value ← extensionValue fields.tail
  let inner ← (parseExpect 0x04 value.value).toOption
  return if inner.size ≠ value.value.length then none else some inner.value

/-- The loop of `subject_key_id`. -/
def subjectKeyIdLoop : List (Except BerError BerTlvAny) → Option Bytes
  | [] => none
  | extension :: rest =>
    match keyIdOfExtension extension with
    | none => none
    | some none => subjectKeyIdLoop rest
    | some (some keyId) => some keyId

/-- `subject_key_id`. -/
def subjectKeyId (extensions : Bytes) : Option Bytes := subjectKeyIdLoop (children extensions)

/-- `certificate_matches_sid`. -/
def certificateMatchesSid (certificate : Certificate) : SignerIdentifier → Bool
  | .issuerAndSerialNumber issuerDer serialNumber =>
    certificate.issuer = issuerDer && certificate.serialDer = serialNumber
  | .subjectKeyIdentifier wanted => certificate.extensions.bind subjectKeyId = some wanted

/-- The search for the signer: certificates are parsed up to the first that matches. -/
def findSigner (sid : SignerIdentifier) : List Bytes → Except DocumentVerifyError (Option Certificate)
  | [] => .ok none
  | candidate :: rest =>
    match Certificate.fromDer X.externals candidate with
    | .error e => .error (.cms ("embedded certificate does not parse: " ++ debugX509Error e))
    | .ok certificate =>
      if certificateMatchesSid certificate sid then .ok (some certificate)
      else findSigner sid rest

/-- The verdict on a signature whose signer was found. -/
def signatureVerdict (signed : SignedData) (certificate : Certificate) : VerifiedSignature :=
  let cn := X.commonName certificate.subject
  match signed.verify X.externals X.checks certificate.spki.der with
  | .ok () => ⟨cn, true, ""⟩
  | .error e => ⟨cn, false, e.display⟩

/-- `verify_signature`. -/
def verifySignature (p7 manifest : Bytes) : Except DocumentVerifyError VerifiedSignature := do
  let signed ← (SignedData.parse p7).mapError fun e =>
    .cms ("signature does not parse: " ++ e.display)
  ensure (signed.econtentTypeOid = Oid.data) (.cms "signature eContentType is not id-data")
  let found ← findSigner X signed.signer.signerIdentifier signed.certificatesDer
  let certificate ← okOr (.cms "signer certificate is not embedded") found
  return signatureVerdict X { signed with econtentDer := manifest } certificate

/-- The entries `verify_signatures` takes for signatures. -/
def ZipEntry.isSignature (entry : ZipEntry) : Bool :=
  (chars "META-INF/").isPrefixOf entry.name &&
    ((chars ".p7s").isSuffixOf entry.name || (chars ".p7m").isSuffixOf entry.name)

/-- `verify_signatures`. -/
def verifySignatures (entries : List ZipEntry) (manifest : Bytes) :
    Except DocumentVerifyError (List VerifiedSignature) := do
  let signatures := entries.filter ZipEntry.isSignature
  ensure (!signatures.isEmpty) .noSignatures
  collect id (signatures.map fun entry => verifySignature X entry.data manifest)

/-! ## §4. The verdict -/

/-- `MANIFEST_ENTRY_ODF`. -/
def manifestEntryOdf : Text := chars "META-INF/manifest.xml"

/-- The manifest, by the name of its entry. -/
def findManifest (entries : List ZipEntry) : Option Bytes :=
  (entries.find? fun entry => entry.name = manifestEntry).map ZipEntry.data

/-- The error of a container without a manifest. -/
def noManifest (entries : List ZipEntry) : DocumentVerifyError :=
  if entries.any fun entry => entry.name = manifestEntryOdf then
    .unsupported
      "XAdES verification is not implemented; this container needs its native application"
  else .manifest "no ASiCManifest.xml in META-INF"

/-- `%PDF`. -/
def pdfMagic : Bytes := [0x25, 0x50, 0x44, 0x46]

/-- `verify_bytes`. -/
def verifyBytes (bytes : Bytes) (container : Text) :
    Except DocumentVerifyError DocumentVerifyReport := do
  ensure (!pdfMagic.isPrefixOf bytes) (.unsupported
    "PDF verification is not implemented; verify signed PDFs in their reader application")
  let entries ← readZip X.inflate bytes
  let manifest ← okOr (noManifest entries) (findManifest entries)
  let refs ← parseManifest manifest
  let files := checkDigests X entries refs ++ flagUncoveredFiles entries refs
  let signatures ← verifySignatures X entries manifest
  return { container, files, signatures
           ok := files.all VerifiedFile.digestOk && signatures.all VerifiedSignature.valid }

/-! ## §5. What an accepted container says -/

/-- The container opens: its entries, its manifest and the manifest's references. -/
structure Opens (bytes : Bytes) (entries : List ZipEntry) (manifest : Bytes)
    (refs : List ManifestRef) : Prop where
  notPdf : pdfMagic.isPrefixOf bytes = false
  zip : readZip X.inflate bytes = .ok entries
  found : findManifest entries = some manifest
  parsed : parseManifest manifest = .ok refs

/-- Every reference has the digest of the entry it is checked against. -/
def DigestsMatch (entries : List ZipEntry) (refs : List ManifestRef) : Prop :=
  ∀ r ∈ refs, ∃ e, lookup entries r = some e ∧
    r.algorithm.digest X.externals e.data = r.expected

/-- Every data entry has a reference with its name. -/
def Covered (entries : List ZipEntry) (refs : List ManifestRef) : Prop :=
  ∀ e ∈ entries, e.isData = true → ∃ r ∈ refs, r.covers e = true

/-- A signature entry verifies over `manifest`, under the certificate it embeds. -/
def SignedOver (manifest : Bytes) (entry : ZipEntry) : Prop :=
  ∃ signed certificate, SignedData.parse entry.data = .ok signed ∧
    signed.econtentTypeOid = Oid.data ∧
    findSigner X signed.signer.signerIdentifier signed.certificatesDer = .ok (some certificate) ∧
    ({ signed with econtentDer := manifest } : SignedData).verify X.externals X.checks
      certificate.spki.der = .ok ()

/-- There are signature entries, and all of them verify. -/
def AllSigned (entries : List ZipEntry) (manifest : Bytes) : Prop :=
  (∃ e ∈ entries, e.isSignature = true) ∧
    ∀ e ∈ entries, e.isSignature = true → SignedOver X manifest e

theorem checkDigest_ok {entries : List ZipEntry} {r : ManifestRef} :
    (checkDigest X entries r).digestOk = true ↔
      ∃ e, lookup entries r = some e ∧ r.algorithm.digest X.externals e.data = r.expected := by
  unfold checkDigest
  cases lookup entries r with
  | none => simp
  | some entry =>
    by_cases h : r.algorithm.digest X.externals entry.data = r.expected
    · simp [h]
    · simp [h]

theorem checkDigests_ok {entries : List ZipEntry} {refs : List ManifestRef} :
    (checkDigests X entries refs).all VerifiedFile.digestOk = true ↔
      DigestsMatch X entries refs := by
  simp only [checkDigests, List.all_map, List.all_eq_true, Function.comp_apply, checkDigest_ok,
    DigestsMatch]

theorem flagUncoveredFiles_ok {entries : List ZipEntry} {refs : List ManifestRef} :
    (flagUncoveredFiles entries refs).all VerifiedFile.digestOk = true ↔
      Covered entries refs := by
  simp only [flagUncoveredFiles, List.all_map, List.all_eq_true, List.mem_filter,
    Bool.and_eq_true, Bool.not_eq_true', Function.comp_apply, Covered]
  constructor
  · intro h e he hdata
    by_contra hnone
    have hany : (refs.any fun r => r.covers e) = false := by
      rw [List.any_eq_false]
      intro r hr hc
      exact hnone ⟨r, hr, hc⟩
    exact absurd (h e ⟨he, hdata, hany⟩) (by simp)
  · intro h e ⟨he, hdata, hany⟩
    obtain ⟨r, hr, hc⟩ := h e he hdata
    exact absurd hc (List.any_eq_false.mp hany r hr)

theorem signatureVerdict_valid {signed : SignedData} {certificate : Certificate} :
    (signatureVerdict X signed certificate).valid = true ↔
      signed.verify X.externals X.checks certificate.spki.der = .ok () := by
  unfold signatureVerdict
  cases signed.verify X.externals X.checks certificate.spki.der with
  | ok u => simp
  | error e => simp

theorem verifySignature_valid {entry : ZipEntry} {manifest : Bytes} :
    (∃ v, verifySignature X entry.data manifest = .ok v ∧ v.valid = true) ↔
      SignedOver X manifest entry := by
  simp only [verifySignature, bind_eq_ok, mapError_eq_ok_iff, ensure_eq_ok, okOr_eq_ok, pure_eq_ok,
    decide_eq_true_eq, SignedOver]
  constructor
  · intro ⟨v, ⟨signed, hparse, _, htype, found, hfound, certificate, hcert, hv⟩, hvalid⟩
    subst hcert hv
    exact ⟨signed, certificate, hparse, htype, hfound, (signatureVerdict_valid X).mp hvalid⟩
  · intro ⟨signed, certificate, hparse, htype, hfound, hverify⟩
    exact ⟨_, ⟨signed, hparse, (), htype, _, hfound, certificate, rfl, rfl⟩,
      (signatureVerdict_valid X).mpr hverify⟩

/-- The verdicts of entries that all verify, in their order. -/
theorem verdicts_valid {manifest : Bytes} (es : List ZipEntry)
    (h : ∀ e ∈ es, SignedOver X manifest e) :
    ∃ vs : List VerifiedSignature,
      es.map (fun e => verifySignature X e.data manifest) = vs.map Except.ok ∧
        vs.all VerifiedSignature.valid = true := by
  induction es with
  | nil => exact ⟨[], rfl, rfl⟩
  | cons e es ih =>
    obtain ⟨v, hv, hvalid⟩ := (verifySignature_valid X).mpr (h e List.mem_cons_self)
    obtain ⟨vs, hvs, hvalids⟩ := ih fun e' he' => h e' (List.mem_cons_of_mem _ he')
    refine ⟨v :: vs, ?_, ?_⟩
    · rw [List.map_cons, List.map_cons, hv, hvs]
    · rw [List.all_cons, hvalid, hvalids]
      rfl

theorem verifySignatures_valid {entries : List ZipEntry} {manifest : Bytes} :
    (∃ vs, verifySignatures X entries manifest = .ok vs ∧
      vs.all VerifiedSignature.valid = true) ↔ AllSigned X entries manifest := by
  simp only [verifySignatures, bind_eq_ok, ensure_eq_ok, collect_eq_ok, AllSigned]
  have hne : (!(entries.filter ZipEntry.isSignature).isEmpty) = true ↔
      ∃ e ∈ entries, e.isSignature = true := by
    rw [Bool.not_eq_true', ← Bool.not_eq_true, List.isEmpty_iff, List.filter_eq_nil_iff]
    push Not
    rfl
  constructor
  · intro ⟨vs, ⟨_, hsome, hvs⟩, hall⟩
    refine ⟨hne.mp hsome, ?_⟩
    intro e he hsig
    have hmem : verifySignature X e.data manifest ∈ vs.map Except.ok := by
      rw [← hvs]
      exact List.mem_map.mpr ⟨e, List.mem_filter.mpr ⟨he, hsig⟩, rfl⟩
    obtain ⟨v, hv, heq⟩ := List.mem_map.mp hmem
    exact (verifySignature_valid X).mp ⟨v, heq.symm, List.all_eq_true.mp hall v hv⟩
  · intro ⟨hsome, hall⟩
    obtain ⟨vs, hvs, hvalid⟩ := verdicts_valid X (entries.filter ZipEntry.isSignature) fun e he =>
      hall e (List.mem_of_mem_filter he) (List.mem_filter.mp he).2
    exact ⟨vs, ⟨(), hne.mpr hsome, hvs⟩, hvalid⟩

/-- **An accepted container**, check by check. -/
theorem accepts_iff {bytes : Bytes} {container : Text} :
    (∃ report, verifyBytes X bytes container = .ok report ∧ report.ok = true) ↔
      ∃ entries manifest refs, Opens X bytes entries manifest refs ∧
        DigestsMatch X entries refs ∧ Covered entries refs ∧ AllSigned X entries manifest := by
  simp only [verifyBytes, bind_eq_ok, ensure_eq_ok, okOr_eq_ok, pure_eq_ok, Bool.not_eq_true']
  constructor
  · intro ⟨report, ⟨_, hpdf, entries, hzip, manifest, hman, refs, hrefs, vs, hvs, heq⟩, hok⟩
    subst heq
    dsimp only at hok
    rw [Bool.and_eq_true, List.all_append, Bool.and_eq_true] at hok
    obtain ⟨⟨hdig, hcov⟩, hsig⟩ := hok
    exact ⟨entries, manifest, refs, ⟨hpdf, hzip, hman, hrefs⟩, (checkDigests_ok X).mp hdig,
      flagUncoveredFiles_ok.mp hcov, (verifySignatures_valid X).mp ⟨vs, hvs, hsig⟩⟩
  · intro ⟨entries, manifest, refs, hopen, hdig, hcov, hsig⟩
    obtain ⟨vs, hvs, hvalid⟩ := (verifySignatures_valid X).mpr hsig
    refine ⟨_, ⟨(), hopen.notPdf, entries, hopen.zip, manifest, hopen.found, refs, hopen.parsed,
      vs, hvs, rfl⟩, ?_⟩
    dsimp only
    rw [List.all_append, (checkDigests_ok X).mpr hdig, flagUncoveredFiles_ok.mpr hcov, hvalid]
    rfl

/-! ## §6. Soundness -/

/-- The manifest attests an entry: a reference with its name has the digest of its
    content. -/
def Attested (refs : List ManifestRef) (entry : ZipEntry) : Prop :=
  ∃ r ∈ refs, r.covers entry = true ∧ r.algorithm.digest X.externals entry.data = r.expected

/-- **The verifier is sound on `bytes`**: when it accepts, the manifest attests every data
    entry, and a signature verifies over the manifest. -/
def Sound (bytes : Bytes) : Prop :=
  ∀ container report, verifyBytes X bytes container = .ok report → report.ok = true →
    ∃ entries manifest refs, Opens X bytes entries manifest refs ∧
      (∀ e ∈ entries, e.isData = true → Attested X refs e) ∧
      ∃ e ∈ entries, e.isSignature = true ∧ SignedOver X manifest e

/-- Every reference with the entry's name is checked against an entry of another digest. -/
def Shadowed (entries : List ZipEntry) (refs : List ManifestRef) (entry : ZipEntry) : Prop :=
  ∀ r ∈ refs, r.covers entry = true → ∃ other, lookup entries r = some other ∧
    r.algorithm.digest X.externals other.data ≠ r.algorithm.digest X.externals entry.data

/-- A container that passes all checks and has a shadowed data entry. -/
def Smuggles (bytes : Bytes) : Prop :=
  ∃ entries manifest refs, Opens X bytes entries manifest refs ∧ DigestsMatch X entries refs ∧
    Covered entries refs ∧ AllSigned X entries manifest ∧
    ∃ e ∈ entries, e.isData = true ∧ Shadowed X entries refs e

theorem opens_unique {bytes manifest manifest' : Bytes} {entries entries' : List ZipEntry}
    {refs refs' : List ManifestRef} (h : Opens X bytes entries manifest refs)
    (h' : Opens X bytes entries' manifest' refs') :
    entries = entries' ∧ manifest = manifest' ∧ refs = refs' := by
  have hentries : entries = entries' := Except.ok.inj (h.zip.symm.trans h'.zip)
  subst hentries
  have hmanifest : manifest = manifest' := Option.some.inj (h.found.symm.trans h'.found)
  subst hmanifest
  exact ⟨rfl, rfl, Except.ok.inj (h.parsed.symm.trans h'.parsed)⟩

/-- Among entries whose references all match, an attested one is one that is not shadowed. -/
theorem attested_iff {entries : List ZipEntry} {refs : List ManifestRef} {entry : ZipEntry}
    (hmatch : DigestsMatch X entries refs) :
    Attested X refs entry ↔ ¬ Shadowed X entries refs entry := by
  constructor
  · intro ⟨r, hr, hcov, hdig⟩ hshadow
    obtain ⟨other, hother, hne⟩ := hshadow r hr hcov
    obtain ⟨e, he, hexp⟩ := hmatch r hr
    rw [hother] at he
    injection he with he
    subst he
    exact hne (hexp.trans hdig.symm)
  · intro hshadow
    unfold Shadowed at hshadow
    push Not at hshadow
    obtain ⟨r, hr, hcov, hall⟩ := hshadow
    obtain ⟨e, he, hexp⟩ := hmatch r hr
    exact ⟨r, hr, hcov, (hall e he).symm.trans hexp⟩

theorem sound_of_not_smuggles {bytes : Bytes} (h : ¬ Smuggles X bytes) : Sound X bytes := by
  intro container report hreport hok
  obtain ⟨entries, manifest, refs, hopen, hdig, hcov, hsig⟩ := (accepts_iff X).mp
    ⟨report, hreport, hok⟩
  obtain ⟨⟨s, hs, hssig⟩, hall⟩ := hsig
  refine ⟨entries, manifest, refs, hopen, ?_, s, hs, hssig, hall s hs hssig⟩
  intro e he hdata
  rw [attested_iff X hdig]
  intro hshadow
  exact h ⟨entries, manifest, refs, hopen, hdig, hcov, ⟨⟨s, hs, hssig⟩, hall⟩, e, he, hdata,
    hshadow⟩

/-- **Soundness, exactly**: the verifier is sound on all containers but those that smuggle
    an entry in. -/
theorem verifyBytes_sound (bytes : Bytes) : Sound X bytes ↔ ¬ Smuggles X bytes := by
  constructor
  · intro hsound ⟨entries, manifest, refs, hopen, hdig, hcov, hsig, e, he, hdata, hshadow⟩
    have hacc : ∃ report, verifyBytes X bytes [] = .ok report ∧ report.ok = true :=
      (accepts_iff X).mpr ⟨entries, manifest, refs, hopen, hdig, hcov, hsig⟩
    obtain ⟨report, hreport, hok⟩ := hacc
    obtain ⟨entries', manifest', refs', hopen', hatt, -⟩ := hsound [] report hreport hok
    obtain ⟨rfl, rfl, rfl⟩ := opens_unique X hopen hopen'
    exact (attested_iff X hdig).mp (hatt e he hdata) hshadow
  · exact sound_of_not_smuggles X

/-! ## §7. Containers without twins -/

theorem lookup_covers {entries : List ZipEntry} {r : ManifestRef} {other : ZipEntry}
    (h : lookup entries r = some other) : other ∈ entries ∧ r.covers other = true := by
  unfold lookup at h
  unfold ManifestRef.covers
  rw [Option.or_eq_some_iff] at h
  rcases h with h | ⟨-, h⟩
  · have hname := List.find?_some h
    rw [decide_eq_true_eq] at hname
    exact ⟨List.mem_of_find?_eq_some h, by simp [hname]⟩
  · have hname := List.find?_some h
    rw [decide_eq_true_eq] at hname
    exact ⟨List.mem_of_find?_eq_some h, by simp [hname]⟩

/-- No reference answers for two different contents, by whichever spelling. -/
def Unambiguous (entries : List ZipEntry) (refs : List ManifestRef) : Prop :=
  ∀ r ∈ refs, ∀ a ∈ entries, ∀ b ∈ entries, r.covers a = true → r.covers b = true →
    a.data = b.data

/-- **Twins are all it takes**: the verifier is sound on a container whose references each
    name one content. -/
theorem attests_of_unambiguous {bytes : Bytes}
    (h : ∀ entries manifest refs, Opens X bytes entries manifest refs →
      Unambiguous entries refs) : Sound X bytes := by
  refine sound_of_not_smuggles X ?_
  intro ⟨entries, manifest, refs, hopen, _, hcov, _, e, he, hdata, hshadow⟩
  obtain ⟨r, hr, hre⟩ := hcov e he hdata
  obtain ⟨other, hother, hne⟩ := hshadow r hr hre
  obtain ⟨hmem, hro⟩ := lookup_covers hother
  have hsame := h entries manifest refs hopen r hr other hmem e he hro hre
  rw [hsame] at hne
  exact hne rfl

/-! ## §8. A second entry of the same name -/

/-- A container with one attested file `a.txt`, a second `a.txt` after it, the manifest
    and a detached ECDSA signature over the manifest. -/
def smuggledContainer : Bytes :=
  octets 32 0x504b0304140000080000000021008a21f9451f0000001f000000080000006d69 ++
  octets 32 0x6d65747970656170706c69636174696f6e2f766e642e657473692e617369632d ++
  octets 32 0x652b7a6970504b030414000008000000002100f3f01023050000000500000005 ++
  octets 32 0x000000612e7478747061792031504b030414000008000000002100c178cb2d05 ++
  octets 32 0x0000000500000005000000612e7478747061792039504b030414000008000000 ++
  octets 32 0x002100d8622dfefb000000fb000000190000004d4554412d494e462f41536943 ++
  octets 32 0x4d616e69666573742e786d6c3c617369633a415369434d616e69666573743e3c ++
  octets 32 0x617369633a446174614f626a6563745265666572656e6365205552493d22612e ++
  octets 32 0x747874223e3c64733a4469676573744d6574686f6420416c676f726974686d3d ++
  octets 32 0x22687474703a2f2f7777772e77332e6f72672f323030312f30342f786d6c656e ++
  octets 32 0x6323736861323536222f3e3c64733a44696765737456616c75653e4233324b48 ++
  octets 32 0x7a4753612b3950506461353352366a7253694b41556462594c786558304c446b ++
  octets 32 0x6b324a64356f3d3c2f64733a44696765737456616c75653e3c2f617369633a44 ++
  octets 32 0x6174614f626a6563745265666572656e63653e3c2f617369633a415369434d61 ++
  octets 32 0x6e69666573743e504b0304140000080000000021005144433507020000070200 ++
  octets 32 0x00160000004d4554412d494e462f7369676e61747572652e7037733082020306 ++
  octets 32 0x092a864886f70d010702a08201f4308201f0020101310d300b06096086480165 ++
  octets 32 0x03040201300b06092a864886f70d010701a08201023081ff3081a6020161300a ++
  octets 32 0x06082a8648ce3d040302300c310a300806035504030c0153301e170d32363031 ++
  octets 32 0x30313030303030305a170d3237303130313030303030305a300c310a30080603 ++
  octets 32 0x5504030c01533059301306072a8648ce3d020106082a8648ce3d030107034200 ++
  octets 32 0x040e4af6c65031b8b585af1e88de4a75c7c023607631b1f919bdf3b9f13d49d5 ++
  octets 32 0xcd8164e3796f98519d0842920fc5e3927d9075917e2fb443add5c0d7df5fcfbe ++
  octets 32 0x4d300a06082a8648ce3d04030203480030450221009e06b508f52e11ae276505 ++
  octets 32 0x3f1d471811df4122848583c52f16ad9eb78b4ba18f02207ac761462e43c0868c ++
  octets 32 0xeb18dd8d89ff6dffb9a84abc922a0e2941cbff1ce04a113181c83081c5020101 ++
  octets 32 0x3011300c310a300806035504030c0153020161300b0609608648016503040201 ++
  octets 32 0xa04b301806092a864886f70d010903310b06092a864886f70d010701302f0609 ++
  octets 32 0x2a864886f70d01090431220420c77cf39c67686f2c5be4291ba9b8ac150af286 ++
  octets 32 0x350af7d8f529d37c4870c0cd21300a06082a8648ce3d04030204473045022100 ++
  octets 32 0xd674c9eb0cf1f9fc27232cf416db11afbd234188344a4312f9e3781c165f2cf0 ++
  octets 32 0x02202566b88dca4b4f1b3620abdc14edec6a57abf1a1051eb51ae623a4189ea3 ++
  octets 24 0xa701504b0506000000000000000000000000000000000000

/-- `n` octets of the container from offset `i`. -/
def containerSlice (i n : Nat) : Bytes := (smuggledContainer.drop i).take n

/-- The digests of both files, the manifest and the signed attributes, and the one
    signature. -/
def sampleSurroundings : Surroundings where
  externals := Externals.sample []
    [(containerSlice 104 5,
        octets 32 0x077d8a1f31926bef4f3dd6b9dd1ea3ad288a01475b60bc5e5f42c3924d89779a),
      (containerSlice 144 5,
        octets 32 0x3b5ea600238bbc57bc61db0238aa0698568ac625ebd89b7a5f72a048e90a78fb),
      (containerSlice 204 251,
        octets 32 0xc77cf39c67686f2c5be4291ba9b8ac150af286350af7d8f529d37c4870c0cd21),
      (rebuiltSet (containerSlice 866 75),
        octets 32 0x05f6c6dca212f35578e6ade78cb5170c575374c8e4d8d02224be82bcc00fcbea)] []
  checks :=
    { rsaKey := fun _ => none
      rsaVerify := fun _ _ _ _ => .error "bad signature"
      ecKey := fun der => (Externals.sample [] [] []).extractEcPubkey der
      ecVerify := fun key signature digest =>
        if key.point = octets 65 0x040e4af6c65031b8b585af1e88de4a75c7c023607631b1f919bdf3b9f13d49d5cd8164e3796f98519d0842920fc5e3927d9075917e2fb443add5c0d7df5fcfbe4d ∧
            signature = containerSlice 955 71 ∧
            digest = octets 32 0x05f6c6dca212f35578e6ade78cb5170c575374c8e4d8d02224be82bcc00fcbea
          then .ok () else .error "bad signature" }
  inflate _ _ := .error "Failed"
  commonName _ := some (chars "S")

/-- The entries of the container, in the order of the walk. -/
def smuggledEntries : List ZipEntry :=
  [⟨chars "mimetype", utf8Encode (chars "application/vnd.etsi.asic-e+zip")⟩,
    ⟨chars "a.txt", containerSlice 104 5⟩, ⟨chars "a.txt", containerSlice 144 5⟩,
    ⟨manifestEntry, containerSlice 204 251⟩,
    ⟨chars "META-INF/signature.p7s", containerSlice 507 519⟩]

/-- The one reference of its manifest. -/
def smuggledRef : ManifestRef :=
  ⟨chars "a.txt", chars "a.txt", .sha256, "SHA-256",
    octets 32 0x077d8a1f31926bef4f3dd6b9dd1ea3ad288a01475b60bc5e5f42c3924d89779a⟩

theorem smuggledContainer_opens :
    Opens sampleSurroundings smuggledContainer smuggledEntries (containerSlice 204 251)
      [smuggledRef] where
  notPdf := by decide
  zip := by decide +kernel
  found := by decide +kernel
  parsed := by decide +kernel

/-- **The second entry is not attested and the container is accepted.** -/
theorem smuggledContainer_unsound : ¬ Sound sampleSurroundings smuggledContainer := by
  intro hsound
  have hok : verifyBytes sampleSurroundings smuggledContainer (chars "c.asice") =
      .ok ⟨chars "c.asice", [⟨chars "a.txt", "SHA-256", true, ""⟩],
        [⟨some (chars "S"), true, ""⟩], true⟩ := by
    decide +kernel
  obtain ⟨entries, manifest, refs, hopen, hatt, -⟩ := hsound _ _ hok rfl
  obtain ⟨rfl, -, rfl⟩ := opens_unique sampleSurroundings smuggledContainer_opens hopen
  obtain ⟨r, hr, -, hdigest⟩ := hatt ⟨chars "a.txt", containerSlice 144 5⟩
    (by decide) (by decide)
  rw [List.mem_singleton] at hr
  subst hr
  exact absurd hdigest (by decide)

end Asic

end RefineId
