/-
  RefineId.Document — archive-protected containers.
  ════════════════════════════════════════════════════════════════════════════

  `crates/refineid-doc-sign/src/document.rs`, for the formats `AsicECades` and `AsicEXades`:
  the plan that waits for the card, the archive manifest built from the card's signature, and
  the container written with it.  The manifest and the container are made by two calls, each
  of which derives the signature entry from the card's signature again.

  Main results:
    • `checkObjectNames_nodup`  : a plan's objects have names of their own.
    • `archiveManifest_attests` : the archive manifest is true of the container exactly if
                                  the signature and the message around it have one digest.
-/
import RefineId.ManifestText
import RefineId.Xades

namespace RefineId

namespace Document

open Lib Cades Asic

/-! ## §1. Names a container can carry -/

/-- `DocumentError`, as far as containers raise it. -/
inductive DocumentError where
  | noInput
  | unusableObjectName
  | containerTooLarge
  | malformedEcdsaSignature (length : Nat)
  | xades (error : Xades.XadesError)
  deriving Repr, DecidableEq

/-- `u8::to_ascii_lowercase`. -/
def asciiLower (b : UInt8) : UInt8 := if 65 ≤ b && b ≤ 90 then b + 32 else b

/-- `str::eq_ignore_ascii_case`. -/
def eqIgnoreAsciiCase (a b : Bytes) : Bool := a.map asciiLower = b.map asciiLower

/-- `char::is_control`. -/
def isControl (c : Char) : Bool := c.toNat < 0x20 || (0x7F ≤ c.toNat && c.toNat < 0xA0)

/-- `unusable_object_name`. -/
def unusableObjectName (name : Text) : Bool :=
  let bytes := utf8Encode name
  name.isEmpty ||
    eqIgnoreAsciiCase bytes (utf8Encode (chars "mimetype")) ||
    eqIgnoreAsciiCase bytes (utf8Encode (chars "META-INF")) ||
    (9 ≤ bytes.length && eqIgnoreAsciiCase (bytes.take 9) (utf8Encode (chars "META-INF/"))) ||
    name.head? = some '/' ||
    name.contains '\\' ||
    (name.splitOn '/').any (fun component =>
      component.isEmpty || component = ['.'] || component = ['.', '.']) ||
    name.any isControl

/-- The loop of `check_object_names`. -/
def checkNames (seen : List Text) : List DataObject → Except DocumentError Unit
  | [] => .ok ()
  | object :: rest =>
    if unusableObjectName object.name || seen.contains object.name then
      .error .unusableObjectName
    else checkNames (seen ++ [object.name]) rest

/-- `check_object_names`. -/
def checkObjectNames (objects : List DataObject) : Except DocumentError Unit :=
  checkNames [] objects

/-! ## §2. The plan -/

/-- The state `AsicECades` of a `DocumentPlan`. -/
structure DocumentPlan where
  attributes : Bytes
  container : ContainerPlan
  deriving Repr, DecidableEq

variable (E : Externals)

/-- `plan` for `Format::AsicECades`; the inner `none` is a panic in the encoder. -/
def planAsicECades (objects : List DataObject) (parameters : SignerParameters) :
    Except DocumentError (Option DocumentPlan) := do
  ensure (!objects.isEmpty) .noInput
  checkObjectNames objects
  let container := Asic.plan E objects parameters.digestAlgorithm
  let digest := parameters.digestAlgorithm.digest E container.manifest
  return (signedAttributes E parameters digest).map fun attributes => ⟨attributes, container⟩

/-- `plan` for `Format::AsicEXades`: what `State::AsicEXades` keeps beside the objects. -/
def planAsicEXades (objects : List DataObject) (parameters : SignerParameters) :
    Except DocumentError Xades.SignaturePlan := do
  ensure (!objects.isEmpty) .noInput
  checkObjectNames objects
  (Xades.plan E objects parameters).mapError .xades

/-- `DocumentPlan::finish` for `State::AsicEXades`. -/
def finishAsicEXades (plan : Xades.SignaturePlan) (objects : List DataObject) (signature : Bytes)
    (timestamps : List Bytes) (material : ValidationMaterial) : Except DocumentError Bytes :=
  okOr .containerTooLarge
    (Xades.xadesContainer objects (plan.finish signature timestamps material))

/-- `for_cms`. -/
def forCms (algorithm : Cades.SignatureAlgorithm) (signature : Bytes) : Except DocumentError Bytes :=
  match algorithm with
  | .rsaPkcs1Sha256 | .rsaPkcs1Sha384 => .ok signature
  | .ecdsaSha256 | .ecdsaSha384 =>
    okOr (.malformedEcdsaSignature signature.length) (ecdsaSignatureToCms signature)

/-- `DocumentPlan::archive_manifest`. -/
def DocumentPlan.archiveManifest (plan : DocumentPlan) (parameters : SignerParameters)
    (signature : Bytes) (algorithm : DigestAlgorithm) : Option Bytes :=
  match forCms parameters.signatureAlgorithm signature with
  | .error _ => none
  | .ok der => some (plan.container.archiveManifest E der algorithm)

/-- `DocumentPlan::finish_archived`; `none` is a panic in the encoder. -/
def DocumentPlan.finishArchived (plan : DocumentPlan) (parameters : SignerParameters)
    (signature : Bytes) (timestamps : List Bytes) (material : ValidationMaterial)
    (archiveManifest token : Bytes) : Option (Except DocumentError Bytes) :=
  match forCms parameters.signatureAlgorithm signature with
  | .error e => some (.error e)
  | .ok der => do
    let cms ← signedData parameters plan.attributes der .detached [] material timestamps
    return okOr .containerTooLarge (plan.container.finishArchived cms archiveManifest token)

/-! ## §3. Names are names -/

/-- What the checks say about the objects of a plan. -/
structure NamesOk (seen : List Text) (objects : List DataObject) : Prop where
  usable : ∀ o ∈ objects, unusableObjectName o.name = false
  fresh : ∀ o ∈ objects, o.name ∉ seen
  nodup : (objects.map DataObject.name).Nodup

theorem checkNames_ok {seen : List Text} {objects : List DataObject}
    (h : checkNames seen objects = .ok ()) : NamesOk seen objects := by
  induction objects generalizing seen with
  | nil => exact ⟨by simp, by simp, by simp⟩
  | cons o os ih =>
    unfold checkNames at h
    split at h
    · exact absurd h (by simp)
    next hok =>
      simp only [Bool.or_eq_true, not_or, Bool.not_eq_true, List.contains_iff_mem] at hok
      obtain ⟨husable, hfresh⟩ := hok
      have hrest := ih h
      refine ⟨?_, ?_, ?_⟩
      · intro o' ho'
        rcases List.mem_cons.mp ho' with rfl | ho'
        · exact husable
        · exact hrest.usable o' ho'
      · intro o' ho' hseen
        rcases List.mem_cons.mp ho' with rfl | ho'
        · exact hfresh hseen
        · exact hrest.fresh o' ho' (List.mem_append_left _ hseen)
      · rw [List.map_cons, List.nodup_cons]
        refine ⟨?_, hrest.nodup⟩
        intro hmem
        obtain ⟨o', ho', hname⟩ := List.mem_map.mp hmem
        exact hrest.fresh o' ho' (List.mem_append_right _ (by simp [hname]))

/-- **A plan's objects have names of their own**: usable, and no name twice. -/
theorem checkObjectNames_nodup {objects : List DataObject} (h : checkObjectNames objects = .ok ()) :
    NamesOk [] objects := checkNames_ok h

/-- The entries a container has of its own. -/
theorem reserved_unusable : unusableObjectName mimetypeEntry = true ∧
    unusableObjectName manifestEntry = true ∧ unusableObjectName signatureEntry = true := by
  decide

/-! ## §4. What the archive manifest attests -/

/-- A manifest is true of a container: the entry that has a reference's name has the
    digest the reference carries. -/
def TrueOf (inflate : Bytes → Nat → Except String Bytes) (manifest container : Bytes) : Prop :=
  ∃ refs, parseManifest manifest = .ok refs ∧
    ∀ r ∈ refs, ∃ e, (localEntries inflate container).find? (fun e => e.name = r.uri) = some e ∧
      r.algorithm.digest E e.data = r.expected

/-- What one run of the two calls is given. -/
structure ArchiveInputs where
  plan : DocumentPlan
  parameters : SignerParameters
  signature : Bytes
  algorithm : DigestAlgorithm
  timestamps : List Bytes
  material : ValidationMaterial
  token : Bytes

/-- The two calls give the manifest `m` and the container. -/
def Yields (i : ArchiveInputs) (m container : Bytes) : Prop :=
  i.plan.archiveManifest E i.parameters i.signature i.algorithm = some m ∧
    i.plan.finishArchived i.parameters i.signature i.timestamps i.material m i.token =
      some (.ok container)

/-- The plan comes from `plan`. -/
def Planned (plan : DocumentPlan) : Prop :=
  ∃ objects parameters, planAsicECades E objects parameters = .ok (some plan)

/-- The card's signature and the message around it, two different strings, have the same
    digest. -/
def SignatureCollides (i : ArchiveInputs) : Prop :=
  ∃ der cms, forCms i.parameters.signatureAlgorithm i.signature = .ok der ∧
    signedData i.parameters i.plan.attributes der .detached [] i.material i.timestamps = some cms ∧
    der ≠ cms ∧ i.algorithm.digest E der = i.algorithm.digest E cms

theorem planned_names {plan : DocumentPlan} (h : Planned E plan) :
    NamesOk [] plan.container.objects := by
  obtain ⟨objects, parameters, h⟩ := h
  simp only [planAsicECades, bind_eq_ok, pure_eq_ok] at h
  obtain ⟨_, _, _, hnames, heq⟩ := h
  rw [Option.map_eq_some_iff] at heq
  obtain ⟨attributes, -, heq⟩ := heq
  rw [← heq]
  exact checkObjectNames_nodup hnames

/-- What the two calls do: the manifest covers the signature, the container stores the
    message around it. -/
theorem yields_iff {i : ArchiveInputs} {m container : Bytes} :
    Yields E i m container ↔ ∃ der cms,
      forCms i.parameters.signatureAlgorithm i.signature = .ok der ∧
      signedData i.parameters i.plan.attributes der .detached [] i.material i.timestamps =
        some cms ∧
      m = i.plan.container.archiveManifest E der i.algorithm ∧
      writeZip (i.plan.container.archivedEntries cms m i.token) = some container := by
  unfold Yields DocumentPlan.archiveManifest DocumentPlan.finishArchived
  cases hder : forCms i.parameters.signatureAlgorithm i.signature with
  | error e => simp
  | ok der =>
    simp only [Option.some.injEq, Except.ok.injEq, Option.bind_eq_bind, Option.bind_eq_some_iff,
      Option.pure_def, okOr_eq_ok, exists_and_left, exists_eq_left', ContainerPlan.finishArchived]
    constructor
    · intro ⟨hm, cms, hcms, hzip⟩
      exact ⟨cms, hcms, hm.symm, hzip⟩
    · intro ⟨cms, hcms, hm, hzip⟩
      exact ⟨hm.symm, cms, hcms, hzip⟩

theorem parse_archiveManifest (container : ContainerPlan) (der : Bytes)
    (algorithm : DigestAlgorithm) :
    parseManifest (container.archiveManifest E der algorithm) =
      .ok ((container.archiveCovered der).map (refOf E algorithm)) := by
  unfold ContainerPlan.archiveManifest
  exact parseManifest_written (by simp [ContainerPlan.archiveCovered]) (by decide) (by decide)

/-! ## §5. Entries by name -/

theorem find_object {objects : List DataObject} {o : DataObject}
    (hnodup : (objects.map DataObject.name).Nodup) (ho : o ∈ objects) :
    (objects.map fun object => (⟨object.name, object.content⟩ : ZipEntry)).find?
      (fun e => e.name = o.name) = some ⟨o.name, o.content⟩ := by
  induction objects with
  | nil => exact absurd ho (by simp)
  | cons a rest ih =>
    rw [List.map_cons, List.nodup_cons] at hnodup
    rw [List.map_cons, List.find?_cons]
    rcases List.mem_cons.mp ho with rfl | hrest
    · simp
    · have hne : ¬ a.name = o.name := by
        intro hname
        exact hnodup.1 (hname ▸ List.mem_map.mpr ⟨o, hrest, rfl⟩)
      simp only [hne, decide_false]
      exact ih hnodup.2 hrest

section
variable {container : ContainerPlan} (hnames : NamesOk [] container.objects)
  (cms m token : Bytes)
include hnames

/-- A data object is found under its name. -/
theorem archived_object {o : DataObject} (ho : o ∈ container.objects) :
    (container.archivedEntries cms m token).find? (fun e => e.name = o.name) =
      some ⟨o.name, o.content⟩ := by
  have hmime : ¬ mimetypeEntry = o.name := by
    intro h
    have husable := hnames.usable o ho
    rw [← h, reserved_unusable.1] at husable
    exact absurd husable (by simp)
  unfold ContainerPlan.archivedEntries
  rw [List.append_assoc, List.find?_append, List.find?_append, find_object hnames.nodup ho]
  simp [hmime]

/-- A reserved name is not found among the data objects. -/
theorem archived_reserved {name : Text} (hname : unusableObjectName name = true)
    (hmime : mimetypeEntry ≠ name) :
    (container.archivedEntries cms m token).find? (fun e => e.name = name) =
      [⟨manifestEntry, container.manifest⟩, ⟨signatureEntry, cms⟩, ⟨archiveManifestEntry, m⟩,
        ⟨archiveTimestampEntry, token⟩].find? (fun e : ZipEntry => e.name = name) := by
  have hobjects : (container.objects.map fun object =>
      (⟨object.name, object.content⟩ : ZipEntry)).find? (fun e => e.name = name) = none := by
    rw [List.find?_eq_none]
    intro e he hen
    obtain ⟨o, ho, rfl⟩ := List.mem_map.mp he
    have husable := hnames.usable o ho
    have hon : o.name = name := of_decide_eq_true hen
    rw [hon, hname] at husable
    exact absurd husable (by simp)
  unfold ContainerPlan.archivedEntries
  rw [List.append_assoc, List.find?_append, List.find?_append, hobjects]
  simp [hmime]

theorem archived_manifest :
    (container.archivedEntries cms m token).find? (fun e => e.name = manifestEntry) =
      some ⟨manifestEntry, container.manifest⟩ := by
  rw [archived_reserved hnames cms m token reserved_unusable.2.1 (by decide)]
  simp

theorem archived_signature :
    (container.archivedEntries cms m token).find? (fun e => e.name = signatureEntry) =
      some ⟨signatureEntry, cms⟩ := by
  have hne : ¬ manifestEntry = signatureEntry := by decide
  rw [archived_reserved hnames cms m token reserved_unusable.2.2 (by decide)]
  simp [hne]

end

/-! ## §6. The manifest and the container -/

/-- The manifest of one run is true of its container exactly if the digest of the message
    is that of the signature. -/
theorem trueOf_iff {inflate : Bytes → Nat → Except String Bytes} {container : ContainerPlan}
    {algorithm : DigestAlgorithm} {der cms token archive : Bytes}
    (hnames : NamesOk [] container.objects)
    (hzip : writeZip (container.archivedEntries cms (container.archiveManifest E der algorithm)
      token) = some archive) :
    TrueOf E inflate (container.archiveManifest E der algorithm) archive ↔
      algorithm.digest E der = algorithm.digest E cms := by
  unfold TrueOf
  rw [localEntries_finish inflate hzip, parse_archiveManifest]
  simp only [Except.ok.injEq, exists_eq_left', List.forall_mem_map]
  constructor
  · intro h
    obtain ⟨e, he, hdigest⟩ := h ⟨signatureEntry, mimetypeSignature, der⟩
      (by simp [ContainerPlan.archiveCovered])
    rw [refOf, archived_signature hnames] at he
    injection he with he
    rw [← he] at hdigest
    exact hdigest.symm
  · intro h o ho
    simp only [ContainerPlan.archiveCovered, List.mem_append, List.mem_cons, List.not_mem_nil,
      or_false] at ho
    rcases ho with ho | rfl | rfl
    · exact ⟨_, archived_object hnames _ _ _ ho, rfl⟩
    · exact ⟨_, archived_manifest hnames _ _ _, rfl⟩
    · exact ⟨_, archived_signature hnames _ _ _, h.symm⟩

/-- **What the archive manifest attests**: whatever the two calls give, the manifest is true
    of the container exactly if the signature and the message around it collide. -/
theorem archiveManifest_attests (inflate : Bytes → Nat → Except String Bytes) (i : ArchiveInputs)
    (hplan : Planned E i.plan) :
    (∀ m container, Yields E i m container → TrueOf E inflate m container) ↔
      ((∃ m container, Yields E i m container) → SignatureCollides E i) := by
  have hnames := planned_names E hplan
  constructor
  · intro h ⟨m, container, hyields⟩
    have htrue := h m container hyields
    obtain ⟨der, cms, hder, hcms, rfl, hzip⟩ := (yields_iff E).mp hyields
    refine ⟨der, cms, hder, hcms, ?_, (trueOf_iff E hnames hzip).mp htrue⟩
    intro heq
    have hlong := signedData_longer hcms
    rw [heq] at hlong
    exact absurd hlong (Nat.lt_irrefl _)
  · intro h m container hyields
    obtain ⟨der, cms, hder, hcms, -, hdigest⟩ := h ⟨m, container, hyields⟩
    obtain ⟨der', cms', hder', hcms', rfl, hzip⟩ := (yields_iff E).mp hyields
    rw [hder] at hder'
    injection hder' with hder'
    subst hder'
    rw [hcms] at hcms'
    injection hcms' with hcms'
    subst hcms'
    exact (trueOf_iff E hnames hzip).mpr hdigest

/-! ## §7. A signature over one file -/

/-- The message around a card's ECDSA signature over the manifest of one file. -/
def sampleMessage : Bytes :=
  octets 32 0x3082023e06092a864886f70d010702a082022f3082022b020101310d300b0609 ++
  octets 32 0x608648016503040201300b06092a864886f70d010701a08201023081ff3081a6 ++
  octets 32 0x020161300a06082a8648ce3d040302300c310a300806035504030c0153301e17 ++
  octets 32 0x0d3236303130313030303030305a170d3237303130313030303030305a300c31 ++
  octets 32 0x0a300806035504030c01533059301306072a8648ce3d020106082a8648ce3d03 ++
  octets 32 0x0107034200040e4af6c65031b8b585af1e88de4a75c7c023607631b1f919bdf3 ++
  octets 32 0xb9f13d49d5cd8164e3796f98519d0842920fc5e3927d9075917e2fb443add5c0 ++
  octets 32 0xd7df5fcfbe4d300a06082a8648ce3d04030203480030450221009e06b508f52e ++
  octets 32 0x11ae2765053f1d471811df4122848583c52f16ad9eb78b4ba18f02207ac76146 ++
  octets 32 0x2e43c0868ceb18dd8d89ff6dffb9a84abc922a0e2941cbff1ce04a1131820102 ++
  octets 32 0x3081ff0201013011300c310a300806035504030c0153020161300b0609608648 ++
  octets 32 0x016503040201a08184301806092a864886f70d010903310b06092a864886f70d ++
  octets 32 0x010701302f06092a864886f70d01090431220420a337f02bbcb316d83276820d ++
  octets 32 0xcdc412b6c7ee58a9e5cd8c2b05db4d217b1e55533037060b2a864886f70d0109 ++
  octets 32 0x10022f31283026302430220420e6e84c74c13864ae1fd8d0e6bdc40c813f43e9 ++
  octets 32 0x42cbd9f664b47461b106b5a3a2300a06082a8648ce3d04030204473045022100 ++
  octets 32 0xbb28c011e35fdb890cc41352475e6cf592ba0dcb3f0165fedb4c591de3261afa ++
  octets 32 0x022070e3e012c7382662e5b978cade7dcab1804c923e28c2843ceebd3fb907b2 ++
  octets 2 0x2c54

/-- The manifest of that file, `a.txt` with the content `pay 1`. -/
def sampleManifest : Bytes :=
  octets 32 0x3c3f786d6c2076657273696f6e3d22312e302220656e636f64696e673d225554 ++
  octets 32 0x462d38223f3e0a3c617369633a415369434d616e696665737420786d6c6e733a ++
  octets 32 0x617369633d22687474703a2f2f7572692e657473692e6f72672f30323931382f ++
  octets 32 0x76312e322e31232220786d6c6e733a64733d22687474703a2f2f7777772e7733 ++
  octets 32 0x2e6f72672f323030302f30392f786d6c6473696723223e0a20203c617369633a ++
  octets 32 0x5369675265666572656e6365205552493d224d4554412d494e462f7369676e61 ++
  octets 32 0x747572652e70377322204d696d65547970653d226170706c69636174696f6e2f ++
  octets 32 0x706b6373372d7369676e6174757265222f3e0a20203c617369633a446174614f ++
  octets 32 0x626a6563745265666572656e6365205552493d22612e74787422204d696d6554 ++
  octets 32 0x7970653d22746578742f706c61696e223e0a202020203c64733a446967657374 ++
  octets 32 0x4d6574686f6420416c676f726974686d3d22687474703a2f2f7777772e77332e ++
  octets 32 0x6f72672f323030312f30342f786d6c656e6323736861323536222f3e0a202020 ++
  octets 32 0x203c64733a44696765737456616c75653e4233324b487a4753612b3950506461 ++
  octets 32 0x353352366a7253694b41556462594c786558304c446b6b324a64356f3d3c2f64 ++
  octets 32 0x733a44696765737456616c75653e0a20203c2f617369633a446174614f626a65 ++
  octets 32 0x63745265666572656e63653e0a3c2f617369633a415369434d616e6966657374 ++
  octets 2 0x3e0a

/-- `n` octets of the message from offset `i`. -/
def messageSlice (i n : Nat) : Bytes := (sampleMessage.drop i).take n

/-- The SHA-256 digests of the file, its manifest, the certificate, the signature and the
    message. -/
def sampleExternals : Externals :=
  Externals.sample []
    [(utf8Encode (chars "pay 1"),
        octets 32 0x077d8a1f31926bef4f3dd6b9dd1ea3ad288a01475b60bc5e5f42c3924d89779a),
      (sampleManifest, octets 32 0xa337f02bbcb316d83276820dcdc412b6c7ee58a9e5cd8c2b05db4d217b1e5553),
      (messageSlice 58 258,
        octets 32 0xe6e84c74c13864ae1fd8d0e6bdc40c813f43e942cbd9f664b47461b106b5a3a2),
      (messageSlice 507 71,
        octets 32 0xa97a4082487a14143d8e544bb9a53ca7cbbde8921e4faa208414798b68be1718),
      (sampleMessage, octets 32 0x407a580d8e16232f8ad43544fd9cf45563c6edeb1851effbf16690bcec4c17c4)] []

/-- The coordinate pair the card returned. -/
def sampleSignature : Bytes :=
  octets 32 0xbb28c011e35fdb890cc41352475e6cf592ba0dcb3f0165fedb4c591de3261afa ++
  octets 32 0x70e3e012c7382662e5b978cade7dcab1804c923e28c2843ceebd3fb907b22c54

/-- The signer, at a time. -/
def sampleSigner : Option SignerParameters := do
  let certificate ← (Certificate.fromDer sampleExternals (messageSlice 58 258)).toOption
  return ⟨certificate, .sha256, .ecdsaSha256, some ⟨2026, 8, 3, 12, 34, 56⟩⟩

/-- The inputs: the certificate parsed, the plan made, the signature returned. -/
def sampleInputs : Option ArchiveInputs := do
  let certificate ← (Certificate.fromDer sampleExternals (messageSlice 58 258)).toOption
  let parameters : SignerParameters := ⟨certificate, .sha256, .ecdsaSha256, none⟩
  let planned ← (planAsicECades sampleExternals
    [⟨chars "a.txt", chars "text/plain", utf8Encode (chars "pay 1")⟩] parameters).toOption
  let plan ← planned
  return ⟨plan, parameters, sampleSignature, .sha256, [], ⟨[], [], []⟩, [0x30, 0x00]⟩

/-- What is stored around the signature, and whether a container is written. -/
def sampleRun : Option (Bytes × Bytes × Bool) := do
  let i ← sampleInputs
  let der ← (forCms i.parameters.signatureAlgorithm i.signature).toOption
  let cms ← signedData i.parameters i.plan.attributes der .detached [] i.material i.timestamps
  return (der, cms, (writeZip (i.plan.container.archivedEntries cms
    (i.plan.container.archiveManifest sampleExternals der i.algorithm) i.token)).isSome)

theorem sampleRun_eq : sampleRun = some (messageSlice 507 71, sampleMessage, true) := by
  decide +kernel

theorem sampleInputs_run : ∃ i, sampleInputs = some i ∧ Planned sampleExternals i.plan ∧
    i.algorithm = .sha256 ∧
    forCms i.parameters.signatureAlgorithm i.signature = .ok (messageSlice 507 71) ∧
    signedData i.parameters i.plan.attributes (messageSlice 507 71) .detached [] i.material
      i.timestamps = some sampleMessage ∧
    ∃ archive, writeZip (i.plan.container.archivedEntries sampleMessage
      (i.plan.container.archiveManifest sampleExternals (messageSlice 507 71) i.algorithm)
      i.token) = some archive := by
  have hrun := sampleRun_eq
  simp only [sampleRun, Option.bind_eq_bind, Option.bind_eq_some_iff, Option.pure_def,
    Option.some.injEq, Prod.mk.injEq] at hrun
  obtain ⟨i, hi, der, hder, cms, hcms, h1, h2, hzip⟩ := hrun
  rw [h1] at hder hcms hzip
  rw [h2] at hcms hzip
  have hinputs := hi
  simp only [sampleInputs, Option.bind_eq_bind, Option.bind_eq_some_iff, Option.pure_def,
    Option.some.injEq] at hinputs
  obtain ⟨certificate, -, planned, hplanned, plan, rfl, rfl⟩ := hinputs
  refine ⟨_, hi, ⟨_, _, toOption_eq_some.mp hplanned⟩, rfl, toOption_eq_some.mp hder, hcms,
    Option.isSome_iff_exists.mp hzip⟩

/-- **The archive manifest is false of its container**: it carries the digest of the bare
    signature, and the entry of that name is the message around it. -/
theorem archiveManifest_false : ∃ i, sampleInputs = some i ∧ Planned sampleExternals i.plan ∧
    ¬ ∀ m container, Yields sampleExternals i m container →
      TrueOf sampleExternals (fun _ _ => .error "Failed") m container := by
  obtain ⟨i, hi, hplan, halg, hder, hcms, archive, hzip⟩ := sampleInputs_run
  refine ⟨i, hi, hplan, ?_⟩
  intro h
  have htrue := h _ archive
    ((yields_iff sampleExternals).mpr ⟨_, _, hder, hcms, rfl, hzip⟩)
  rw [trueOf_iff sampleExternals (planned_names sampleExternals hplan) hzip, halg] at htrue
  exact absurd htrue (by decide +kernel)

theorem sampleInputs_attests : ∃ i, sampleInputs = some i ∧ Planned sampleExternals i.plan ∧
    ((∀ m container, Yields sampleExternals i m container →
        TrueOf sampleExternals (fun _ _ => .error "Failed") m container) ↔
      ((∃ m container, Yields sampleExternals i m container) →
        SignatureCollides sampleExternals i)) := by
  obtain ⟨i, hi, hplan, -⟩ := sampleInputs_run
  exact ⟨i, hi, hplan, archiveManifest_attests sampleExternals _ i hplan⟩

end Document

end RefineId
