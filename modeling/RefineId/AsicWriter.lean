/-
  RefineId.AsicWriter — writing containers.
  ════════════════════════════════════════════════════════════════════════════

  `crates/refineid-doc-sign/src/asic.rs`: the manifests, and a ZIP writer that stores its
  entries.  What the writer puts in is what the local headers of its output give back.

  Main results:
    • `localEntries_finish`  : the entries of a finished archive are those that were added.
    • `readZip_localEntries` : the verifier's walk reads the same entries, when it accepts.
-/
import RefineId.Base64
import RefineId.Cades
import RefineId.Zip

namespace RefineId

namespace Asic

open Lib Cades

/-! ## §1. Names and attribute values -/

/-- One character of `escape_attribute`. -/
def escapeChar (c : Char) : Text :=
  if c = '&' then chars "&amp;"
  else if c = '<' then chars "&lt;"
  else if c = '"' then chars "&quot;"
  else if c = '\t' then chars "&#x9;"
  else if c = '\n' then chars "&#xA;"
  else if c = '\r' then chars "&#xD;"
  else [c]

/-- `escape_attribute`. -/
def escapeAttribute (value : Text) : Text := value.flatMap escapeChar

/-- An upper-case hexadecimal digit. -/
def hexDigit (n : Nat) : Char := if n < 10 then Char.ofNat (48 + n) else Char.ofNat (55 + n)

/-- The octets `percent_encode_path` leaves alone. -/
def unreserved (b : UInt8) : Bool :=
  (48 ≤ b && b ≤ 57) || (65 ≤ b && b ≤ 90) || (97 ≤ b && b ≤ 122) ||
    b = 0x2D || b = 0x2E || b = 0x5F || b = 0x7E || b = 0x2F

/-- One octet of `percent_encode_path`. -/
def percentEncodeByte (b : UInt8) : Text :=
  if unreserved b then [Char.ofNat b.toNat]
  else ['%', hexDigit (b.toNat / 16), hexDigit (b.toNat % 16)]

/-- `percent_encode_path`. -/
def percentEncodePath (name : Text) : Text := (utf8Encode name).flatMap percentEncodeByte

/-! ## §2. Manifests -/

/-- `DataObject`. -/
structure DataObject where
  name : Text
  mimeType : Text
  content : Bytes
  deriving Repr, DecidableEq

/-- `ContainerPlan`. -/
structure ContainerPlan where
  objects : List DataObject
  manifest : Bytes
  deriving Repr, DecidableEq

def mimetypeEntry : Text := chars "mimetype"

def mimetypeAsice : Text := chars "application/vnd.etsi.asic-e+zip"

def signatureEntry : Text := chars "META-INF/signature.p7s"

def archiveManifestEntry : Text := chars "META-INF/ASiCArchiveManifest.xml"

def archiveTimestampEntry : Text := chars "META-INF/timestamp.tst"

def mimetypeSignature : Text := chars "application/pkcs7-signature"

def mimetypeTimestamp : Text := chars "application/vnd.etsi.timestamp-token"

def mimetypeXml : Text := chars "text/xml"

/-- `digest_method_uri`. -/
def digestMethodUri : DigestAlgorithm → Text
  | .sha256 => chars "http://www.w3.org/2001/04/xmlenc#sha256"
  | .sha384 => chars "http://www.w3.org/2001/04/xmldsig-more#sha384"

/-- The four lines of a DataObjectReference. -/
def referenceText (E : Externals) (algorithm : DigestAlgorithm) (object : DataObject) : Text :=
  chars "  <asic:DataObjectReference URI=\"" ++ escapeAttribute (percentEncodePath object.name) ++
    chars "\" MimeType=\"" ++ escapeAttribute object.mimeType ++ chars "\">\n" ++
  (chars "    <ds:DigestMethod Algorithm=\"" ++ digestMethodUri algorithm ++ chars "\"/>\n") ++
  (chars "    <ds:DigestValue>" ++
    asciiText (Base64.encode (algorithm.digest E object.content)) ++ chars "</ds:DigestValue>\n") ++
  chars "  </asic:DataObjectReference>\n"

/-- What the two manifests share: the token or signature they name, and what they cover. -/
def manifestText (E : Externals) (algorithm : DigestAlgorithm) (sigUri sigMime : Text)
    (covered : List DataObject) : Text :=
  chars "<?xml version=\"1.0\" encoding=\"UTF-8\"?>" ++
  chars "\n<asic:ASiCManifest xmlns:asic=\"http://uri.etsi.org/02918/v1.2.1#\" xmlns:ds=\"http://www.w3.org/2000/09/xmldsig#\">\n" ++
  (chars "  <asic:SigReference URI=\"" ++ sigUri ++ chars "\" MimeType=\"" ++ sigMime ++
    chars "\"/>\n") ++
  covered.flatMap (referenceText E algorithm) ++ chars "</asic:ASiCManifest>\n"

/-- `asic::plan`. -/
def plan (E : Externals) (objects : List DataObject) (algorithm : DigestAlgorithm) :
    ContainerPlan where
  objects
  manifest := utf8Encode (manifestText E algorithm signatureEntry mimetypeSignature objects)

/-- What the archive manifest covers. -/
def ContainerPlan.archiveCovered (container : ContainerPlan) (signatureDer : Bytes) :
    List DataObject :=
  container.objects ++ [⟨manifestEntry, mimetypeXml, container.manifest⟩,
    ⟨signatureEntry, mimetypeSignature, signatureDer⟩]

/-- `ContainerPlan::archive_manifest`. -/
def ContainerPlan.archiveManifest (E : Externals) (container : ContainerPlan)
    (signatureDer : Bytes) (algorithm : DigestAlgorithm) : Bytes :=
  utf8Encode (manifestText E algorithm archiveTimestampEntry mimetypeTimestamp
    (container.archiveCovered signatureDer))

/-! ## §3. The ZIP writer -/

/-- Little-endian octets. -/
def leBytes : Nat → Nat → Bytes
  | 0, _ => []
  | n + 1, value => UInt8.ofNat (value % 256) :: leBytes n (value / 256)

/-- One bit of `crc32`. -/
def crcBit (crc : UInt32) : UInt32 :=
  if crc &&& 1 ≠ 0 then (crc >>> 1) ^^^ 0xEDB88320 else crc >>> 1

/-- `crc32`. -/
def crc32 (data : Bytes) : Nat :=
  (~~~ data.foldl (fun crc byte => Nat.iterate crcBit 8 (crc ^^^ byte.toUInt32)) 0xFFFFFFFF).toNat

/-- `ZipWriter`. -/
structure ZipWriter where
  out : Bytes
  directory : Bytes
  count : Nat
  overflowed : Bool

/-- `ZipWriter::new`. -/
def ZipWriter.new : ZipWriter := ⟨[], [], 0, false⟩

/-- Bit 11 of the flags declares a UTF-8 name. -/
def nameFlags (nameBytes : Bytes) : Nat := if nameBytes.all fun b => b < 0x80 then 0 else 0x0800

/-- The fields the local and the central header share: flags to name length. -/
def sharedFields (nameBytes content : Bytes) : Bytes :=
  leBytes 2 (nameFlags nameBytes) ++ leBytes 2 0 ++ leBytes 2 0 ++ leBytes 2 0 ++
    leBytes 4 (crc32 content) ++ leBytes 4 content.length ++ leBytes 4 content.length ++
    leBytes 2 nameBytes.length

/-- An entry as the writer stores it. -/
def localRecord (nameBytes content : Bytes) : Bytes :=
  leBytes 4 0x04034B50 ++ leBytes 2 20 ++ sharedFields nameBytes content ++ leBytes 2 0 ++
    nameBytes ++ content

/-- Its record in the central directory. -/
def centralRecord (nameBytes content : Bytes) (offset : Nat) : Bytes :=
  leBytes 4 0x02014B50 ++ leBytes 2 0x0314 ++ leBytes 2 20 ++ sharedFields nameBytes content ++
    (leBytes 2 0 ++ leBytes 2 0 ++ leBytes 2 0 ++ leBytes 2 0) ++ leBytes 4 0x81A40000 ++
    leBytes 4 offset ++ nameBytes

/-- `ZipWriter::add`; what overflowed once stays so. -/
def ZipWriter.add (w : ZipWriter) (entry : ZipEntry) : ZipWriter :=
  let nameBytes := utf8Encode entry.name
  if 2 ^ 32 ≤ w.out.length || 2 ^ 32 ≤ entry.data.length || 2 ^ 16 ≤ nameBytes.length then
    { w with overflowed := true }
  else if 2 ^ 16 ≤ w.count + 1 then { w with overflowed := true }
  else
    { w with
      out := w.out ++ localRecord nameBytes entry.data
      directory := w.directory ++ centralRecord nameBytes entry.data w.out.length
      count := w.count + 1 }

/-- `ZipWriter::finish`. -/
def ZipWriter.finish (w : ZipWriter) : Option Bytes :=
  if w.overflowed then none
  else if 2 ^ 32 ≤ w.out.length || 2 ^ 32 ≤ w.directory.length then none
  else some (w.out ++ w.directory ++ leBytes 4 0x06054B50 ++ leBytes 2 0 ++ leBytes 2 0 ++
    leBytes 2 w.count ++ leBytes 2 w.count ++ leBytes 4 w.directory.length ++
    leBytes 4 w.out.length ++ leBytes 2 0)

/-- An archive of `entries`, added in their order. -/
def writeZip (entries : List ZipEntry) : Option Bytes :=
  (entries.foldl ZipWriter.add ZipWriter.new).finish

/-- What `finish` puts in the archive. -/
def ContainerPlan.finishedEntries (container : ContainerPlan) (signatureDer : Bytes) :
    List ZipEntry :=
  [⟨mimetypeEntry, utf8Encode mimetypeAsice⟩] ++
    container.objects.map (fun object => ⟨object.name, object.content⟩) ++
    [⟨manifestEntry, container.manifest⟩, ⟨signatureEntry, signatureDer⟩]

/-- `ContainerPlan::finish`. -/
def ContainerPlan.finish (container : ContainerPlan) (signatureDer : Bytes) : Option Bytes :=
  writeZip (container.finishedEntries signatureDer)

/-- What `finish_archived` puts in the archive. -/
def ContainerPlan.archivedEntries (container : ContainerPlan)
    (signatureDer archiveManifest token : Bytes) : List ZipEntry :=
  [⟨mimetypeEntry, utf8Encode mimetypeAsice⟩] ++
    container.objects.map (fun object => ⟨object.name, object.content⟩) ++
    [⟨manifestEntry, container.manifest⟩, ⟨signatureEntry, signatureDer⟩,
      ⟨archiveManifestEntry, archiveManifest⟩, ⟨archiveTimestampEntry, token⟩]

/-- `ContainerPlan::finish_archived`. -/
def ContainerPlan.finishArchived (container : ContainerPlan)
    (signatureDer archiveManifest token : Bytes) : Option Bytes :=
  writeZip (container.archivedEntries signatureDer archiveManifest token)

/-! ## §4. What an archive holds -/

section
variable (inflate : Bytes → Nat → Except String Bytes)

/-- One local record: its entry, or the end of the records. -/
def localStep (bytes : Bytes) : Option ZipEntry × Option Bytes :=
  match readLe 4 bytes with
  | none => (none, none)
  | some (sig, c) =>
    if sig = 0x04034B50 then
      match readEntry inflate c with
      | .ok (entry, rest) => (some entry, some rest)
      | .error _ => (none, none)
    else (none, none)

/-- The entries of an archive, by its local records and without the verifier's ceilings. -/
def localEntries (bytes : Bytes) : List ZipEntry := (unfold (localStep inflate) bytes).reduceOption

theorem localStep_shrinks : Shrinks (localStep inflate) := by
  intro input item rest h
  unfold localStep at h
  split at h
  · exact absurd h (by simp)
  next sig c hsig =>
    have hc := readLe_length hsig
    split at h
    · split at h
      next entry rest' hentry =>
        have hc' := readEntry_length inflate hentry
        injection h with _ h
        injection h with h
        rw [← h]
        omega
      · exact absurd h (by simp)
    · exact absurd h (by simp)

theorem localEntries_next {bytes rest : Bytes} {entry : ZipEntry}
    (h : localStep inflate bytes = (some entry, some rest)) :
    localEntries inflate bytes = entry :: localEntries inflate rest := by
  cases bytes with
  | nil => exact absurd h (by simp [localStep, readLe, take])
  | cons b bs =>
    unfold localEntries
    rw [unfold_cons (localStep_shrinks inflate), h]
    rfl

theorem localEntries_end {bytes : Bytes} (h : localStep inflate bytes = (none, none)) :
    localEntries inflate bytes = [] := by
  cases bytes with
  | nil => rfl
  | cons b bs =>
    unfold localEntries
    rw [unfold_cons (localStep_shrinks inflate), h]
    rfl

/-! ## §5. Reading back -/

theorem leBytes_length (n value : Nat) : (leBytes n value).length = n := by
  induction n generalizing value with
  | zero => rfl
  | succ n ih => rw [leBytes, List.length_cons, ih]

theorem leValue_leBytes {n value : Nat} (h : value < 256 ^ n) : leValue (leBytes n value) = value := by
  induction n generalizing value with
  | zero =>
    have : value = 0 := by simpa using h
    rw [this]
    rfl
  | succ n ih =>
    have hdiv : value / 256 < 256 ^ n := by
      rw [Nat.div_lt_iff_lt_mul (by decide)]
      rwa [Nat.pow_succ] at h
    rw [leBytes, leValue, ih hdiv, toNat_ofNat_small (Nat.mod_lt _ (by decide))]
    omega

theorem take_append {n : Nat} {bytes : Bytes} (rest : Bytes) (h : bytes.length = n) :
    take n (bytes ++ rest) = some (bytes, rest) := by
  unfold take
  rw [if_pos (by rw [List.length_append]; omega), ← h, List.take_left, List.drop_left]

theorem take_zero (bytes : Bytes) : take 0 bytes = some ([], bytes) := by
  simp [take]

theorem readLe_leBytes {n value : Nat} (rest : Bytes) (h : value < 256 ^ n) :
    readLe n (leBytes n value ++ rest) = some (value, rest) := by
  unfold readLe
  rw [take_append rest (leBytes_length n value)]
  show some (leValue (leBytes n value), rest) = _
  rw [leValue_leBytes h]

theorem nameFlags_cases (nameBytes : Bytes) :
    nameFlags nameBytes = 0 ∨ nameFlags nameBytes = 0x0800 := by
  unfold nameFlags
  split
  · exact Or.inl rfl
  · exact Or.inr rfl

theorem crc32_lt (data : Bytes) : crc32 data < 256 ^ 4 := UInt32.toNat_lt _

theorem header_read {nameBytes content rest : Bytes} (hname : nameBytes.length < 2 ^ 16)
    (hlen : content.length < 2 ^ 32) :
    LocalHeader.read (leBytes 2 20 ++ (sharedFields nameBytes content ++ (leBytes 2 0 ++ rest))) =
      some (⟨nameFlags nameBytes, 0, content.length, content.length, nameBytes.length, 0⟩,
        rest) := by
  have hflags : nameFlags nameBytes < 256 ^ 2 := by
    rcases nameFlags_cases nameBytes with h | h <;> rw [h] <;> decide
  have hn : nameBytes.length < 256 ^ 2 := hname
  have hl : content.length < 256 ^ 4 := hlen
  have hz : 0 < 256 ^ 2 := by decide
  have hv : 20 < 256 ^ 2 := by decide
  unfold LocalHeader.read sharedFields
  simp only [List.append_assoc, readLe_leBytes _ hv, readLe_leBytes _ hflags, readLe_leBytes _ hz,
    readLe_leBytes _ (crc32_lt content), readLe_leBytes _ hl, readLe_leBytes _ hn,
    Option.bind_eq_bind, Option.bind_some]
  rfl

/-- **A stored entry is read back**: its signature, and then the entry. -/
theorem record_read {entry : ZipEntry} (rest : Bytes)
    (hname : (utf8Encode entry.name).length < 2 ^ 16) (hlen : entry.data.length < 2 ^ 32) :
    ∃ c, readLe 4 (localRecord (utf8Encode entry.name) entry.data ++ rest) = some (0x04034B50, c) ∧
      readEntry inflate c = .ok (entry, rest) := by
  have hsig : (0x04034B50 : Nat) < 256 ^ 4 := by decide
  refine ⟨leBytes 2 20 ++ (sharedFields (utf8Encode entry.name) entry.data ++
      (leBytes 2 0 ++ (utf8Encode entry.name ++ (entry.data ++ rest)))), ?_, ?_⟩
  · unfold localRecord
    simp only [List.append_assoc, readLe_leBytes _ hsig]
  · simp only [readEntry, bind_eq_ok, okOr_eq_ok, ensure_eq_ok, pure_eq_ok, decide_eq_true_eq]
    refine ⟨_, header_read hname hlen, (), ?_, (), ?_, _, take_append _ rfl, _, take_zero _, _,
      take_append _ rfl, entry.data, rfl, (), rfl, ?_⟩
    · show nameFlags (utf8Encode entry.name) % 2 = 0
      rcases nameFlags_cases (utf8Encode entry.name) with h | h <;> rw [h]
    · show nameFlags (utf8Encode entry.name) / 8 % 2 = 0
      rcases nameFlags_cases (utf8Encode entry.name) with h | h <;> rw [h]
    · rw [fromUtf8Lossy_utf8Encode]

theorem localStep_record {entry : ZipEntry} (rest : Bytes)
    (hname : (utf8Encode entry.name).length < 2 ^ 16) (hlen : entry.data.length < 2 ^ 32) :
    localStep inflate (localRecord (utf8Encode entry.name) entry.data ++ rest) =
      (some entry, some rest) := by
  obtain ⟨c, hsig, hread⟩ := record_read inflate rest hname hlen
  unfold localStep
  simp only [hsig, if_true, hread]

/-! ## §6. A finished archive -/

/-- What the writer has, as long as nothing overflowed: the records of the entries added,
    each within its fields, and a directory that is not taken for a record. -/
structure Holds (w : ZipWriter) (entries : List ZipEntry) : Prop where
  out : w.out = (entries.map fun e => localRecord (utf8Encode e.name) e.data).flatten
  fits : ∀ e ∈ entries, (utf8Encode e.name).length < 2 ^ 16 ∧ e.data.length < 2 ^ 32
  directory : w.directory = [] ∨ ∃ d, w.directory = leBytes 4 0x02014B50 ++ d

theorem holds_new : Holds ZipWriter.new [] := ⟨rfl, by simp, Or.inl rfl⟩

theorem centralRecord_signature (nameBytes content : Bytes) (offset : Nat) :
    ∃ d, centralRecord nameBytes content offset = leBytes 4 0x02014B50 ++ d := by
  unfold centralRecord
  simp only [List.append_assoc]
  exact ⟨_, rfl⟩

theorem holds_add {w : ZipWriter} {entries : List ZipEntry} {entry : ZipEntry}
    (hw : Holds w entries) (hok : (w.add entry).overflowed = false) :
    w.overflowed = false ∧ Holds (w.add entry) (entries ++ [entry]) := by
  unfold ZipWriter.add at hok ⊢
  dsimp only at hok ⊢
  split at hok
  · exact absurd hok (by simp)
  next hsmall =>
    split at hok
    · exact absurd hok (by simp)
    next hcount =>
      rw [if_neg hsmall, if_neg hcount]
      simp only [Bool.or_eq_true, decide_eq_true_eq, not_or, Nat.not_le] at hsmall
      obtain ⟨⟨-, hdata⟩, hname⟩ := hsmall
      refine ⟨hok, ?_, ?_, ?_⟩
      · rw [hw.out, List.map_append, List.flatten_append]
        simp
      · intro e he
        rcases List.mem_append.mp he with he | he
        · exact hw.fits e he
        · rw [List.mem_singleton.mp he]
          exact ⟨hname, hdata⟩
      · right
        rcases hw.directory with hd | ⟨d, hd⟩
        · obtain ⟨d, hc⟩ := centralRecord_signature (utf8Encode entry.name) entry.data w.out.length
          refine ⟨d, ?_⟩
          show w.directory ++ centralRecord _ _ _ = _
          rw [hd, List.nil_append, hc]
        · refine ⟨d ++ centralRecord (utf8Encode entry.name) entry.data w.out.length, ?_⟩
          show w.directory ++ centralRecord _ _ _ = _
          rw [hd, List.append_assoc]

theorem add_overflowed {w : ZipWriter} (entry : ZipEntry) (h : w.overflowed = true) :
    (w.add entry).overflowed = true := by
  unfold ZipWriter.add
  dsimp only
  split
  · rfl
  · split
    · rfl
    · exact h

theorem foldl_overflowed {w : ZipWriter} (entries : List ZipEntry) (h : w.overflowed = true) :
    (entries.foldl ZipWriter.add w).overflowed = true := by
  induction entries generalizing w with
  | nil => exact h
  | cons e es ih => exact ih (add_overflowed e h)

theorem holds_foldl {entries added : List ZipEntry} {w : ZipWriter} (hw : Holds w entries)
    (hok : (added.foldl ZipWriter.add w).overflowed = false) :
    Holds (added.foldl ZipWriter.add w) (entries ++ added) := by
  induction added generalizing w entries with
  | nil =>
    rw [List.append_nil]
    exact hw
  | cons e es ih =>
    rw [List.foldl_cons] at hok ⊢
    have hadd : (w.add e).overflowed = false := by
      cases hover : (w.add e).overflowed with
      | false => rfl
      | true =>
        rw [foldl_overflowed es hover] at hok
        exact absurd hok (by simp)
    have hnext := ih (holds_add hw hadd).2 hok
    rwa [List.append_assoc] at hnext

theorem localEntries_records {entries : List ZipEntry} {rest : Bytes}
    (hfits : ∀ e ∈ entries, (utf8Encode e.name).length < 2 ^ 16 ∧ e.data.length < 2 ^ 32)
    (hrest : localStep inflate rest = (none, none)) :
    localEntries inflate
      ((entries.map fun e => localRecord (utf8Encode e.name) e.data).flatten ++ rest) = entries := by
  induction entries with
  | nil => exact localEntries_end inflate hrest
  | cons e es ih =>
    have he := hfits e List.mem_cons_self
    rw [List.map_cons, List.flatten_cons, List.append_assoc,
      localEntries_next inflate (localStep_record inflate _ he.1 he.2),
      ih fun e' he' => hfits e' (List.mem_cons_of_mem _ he')]

theorem localStep_other {sig : Nat} (rest : Bytes) (hlt : sig < 256 ^ 4) (h : sig ≠ 0x04034B50) :
    localStep inflate (leBytes 4 sig ++ rest) = (none, none) := by
  unfold localStep
  rw [readLe_leBytes _ hlt]
  simp only [h, if_false]

/-- **The entries of a finished archive are those that were added.** -/
theorem localEntries_finish {entries : List ZipEntry} {archive : Bytes}
    (h : writeZip entries = some archive) : localEntries inflate archive = entries := by
  unfold writeZip at h
  generalize hw : entries.foldl ZipWriter.add ZipWriter.new = w at h
  unfold ZipWriter.finish at h
  split at h
  · exact absurd h (by simp)
  next hover =>
    split at h
    · exact absurd h (by simp)
    · have hholds : Holds w entries := by
        rw [← hw] at hover ⊢
        exact holds_foldl holds_new (by simpa using hover)
      injection h with h
      rw [← h, hholds.out]
      simp only [List.append_assoc]
      refine localEntries_records inflate hholds.fits ?_
      rcases hholds.directory with hd | ⟨d, hd⟩
      · rw [hd]
        exact localStep_other inflate _ (by decide) (by decide)
      · rw [hd, List.append_assoc]
        exact localStep_other inflate _ (by decide) (by decide)

theorem walkTurn_localEntries {s s' : WalkState} (h : walkTurn inflate s = .next s') :
    s.entries ++ localEntries inflate s.cursor = s'.entries ++ localEntries inflate s'.cursor := by
  unfold walkTurn at h
  split at h
  · exact absurd h (by simp)
  next sig c hsig =>
    split at h
    · exact absurd h (by simp)
    split at h
    · exact absurd h (by simp)
    next hlocal =>
      split at h
      · exact absurd h (by simp)
      next entry c' hentry =>
        have hstep : localStep inflate s.cursor = (some entry, some c') := by
          unfold localStep
          rw [hsig]
          simp only [not_not.mp hlocal, if_true, hentry]
        dsimp only at h
        split at h
        · exact absurd h (by simp)
        split at h
        · exact absurd h (by simp)
        injection h with h
        rw [← h, localEntries_next inflate hstep, List.append_assoc]
        rfl

theorem walkTurn_done {s : WalkState} {entries : List ZipEntry}
    (h : walkTurn inflate s = .done (.ok entries)) :
    s.entries = entries ∧ localEntries inflate s.cursor = [] := by
  have hfinish : ∀ es : List ZipEntry, finishWalk es = .ok entries → es = entries := by
    intro es hes
    unfold finishWalk at hes
    split at hes
    · exact absurd hes (by simp)
    · exact Except.ok.inj hes
  unfold walkTurn at h
  split at h
  next hnone =>
    injection h with h
    refine ⟨hfinish _ h, localEntries_end inflate ?_⟩
    unfold localStep
    rw [hnone]
  next sig c hsig =>
    split at h
    next hend =>
      injection h with h
      refine ⟨hfinish _ h, localEntries_end inflate ?_⟩
      unfold localStep
      rw [hsig]
      rcases hend with hend | hend <;> simp [hend]
    split at h
    · injection h with h
      exact absurd h (by simp)
    split at h
    · exact absurd h (by simp)
    dsimp only at h
    split at h
    · exact absurd h (by simp)
    split at h
    · exact absurd h (by simp)
    · exact absurd h (by simp)

/-- **The verifier's walk reads the local records**, when it accepts. -/
theorem readZip_localEntries {bytes : Bytes} {entries : List ZipEntry}
    (h : readZip inflate bytes = .ok entries) : localEntries inflate bytes = entries := by
  have hloop := readZip_total inflate bytes
  rw [h] at hloop
  have hpost : ∀ es : List ZipEntry, (Except.ok entries : Except DocumentVerifyError _) = .ok es →
      localEntries inflate bytes = es :=
    loop_post (fun s => localEntries inflate bytes = s.entries ++ localEntries inflate s.cursor)
      (fun r => ∀ es, r = .ok es → localEntries inflate bytes = es)
      (fun s s' hs hn => hs.trans (walkTurn_localEntries inflate hn))
      (fun s r hs hd es hr => by
        obtain ⟨h1, h2⟩ := walkTurn_done inflate (hr ▸ hd)
        rw [hs, h1, h2, List.append_nil])
      rfl hloop
  exact hpost entries rfl

end

end Asic

end RefineId
