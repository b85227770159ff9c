/-
  RefineId.AsicRoundTrip — the container writer and the verifier agree.
  ════════════════════════════════════════════════════════════════════════════

  What `crates/refineid-doc-sign/src/asic.rs` writes, `asic_verify.rs` reads back: the
  entries, the references of the manifest, and a verdict without objections.  The verifier
  does not look at the central directory; other readers do, so the directory is read here
  as the ZIP format defines it, and compared with the local records.

  Main results:
    • `readZip_writeZip`          : the walk reads the entries that were added.
    • `centralDirectory_writeZip` : the directory lists them, each with the place of its
                                    local record.
    • `writer_verifier_agree`     : a finished container is read back and found in order.
-/
import RefineId.AsicVerify
import RefineId.Document

namespace RefineId

namespace Asic

open Lib Cades Document

/-! ## §1. The walk over a finished archive -/

/-- The records of entries, one after the other. -/
def records (entries : List ZipEntry) : Bytes :=
  (entries.map fun e => localRecord (utf8Encode e.name) e.data).flatten

/-- Each entry within the fields of its headers. -/
def Fits (entries : List ZipEntry) : Prop :=
  ∀ e ∈ entries, (utf8Encode e.name).length < 2 ^ 16 ∧ e.data.length < 2 ^ 32

/-- The octets of all entries together. -/
def totalSize (entries : List ZipEntry) : Nat := (entries.map fun e => e.data.length).sum

section
variable (inflate : Bytes → Nat → Except String Bytes)

/-- The walk goes on over a record. -/
theorem walkTurn_record {entry : ZipEntry} {rest : Bytes} {acc : List ZipEntry} {total : Nat}
    (hname : (utf8Encode entry.name).length < 2 ^ 16) (hlen : entry.data.length < 2 ^ 32)
    (htotal : total + entry.data.length ≤ maxBytes) (hcount : acc.length + 1 ≤ maxEntries) :
    walkTurn inflate ⟨localRecord (utf8Encode entry.name) entry.data ++ rest, acc, total⟩ =
      .next ⟨rest, acc ++ [entry], total + entry.data.length⟩ := by
  obtain ⟨c, hsig, hread⟩ := record_read inflate rest hname hlen
  have hover : ¬ maxBytes < total + entry.data.length := Nat.not_lt.mpr htotal
  have hmany : ¬ maxEntries < (acc ++ [entry]).length := by
    rw [List.length_append, List.length_singleton]
    exact Nat.not_lt.mpr hcount
  unfold walkTurn
  dsimp only
  rw [hsig]
  dsimp only
  rw [if_neg (by decide), if_neg (by decide), hread]
  dsimp only
  rw [if_neg hover, if_neg hmany]

theorem runs_records {entries acc : List ZipEntry} {rest : Bytes} {total : Nat}
    (hfits : Fits entries) (htotal : total + totalSize entries ≤ maxBytes)
    (hcount : acc.length + entries.length ≤ maxEntries) (hne : acc ++ entries ≠ [])
    (hrest : ∃ sig d, rest = leBytes 4 sig ++ d ∧ (sig = 0x02014B50 ∨ sig = 0x06054B50)) :
    Runs (walkTurn inflate) ⟨records entries ++ rest, acc, total⟩ (.ok (acc ++ entries)) := by
  induction entries generalizing acc total with
  | nil =>
    obtain ⟨sig, d, rfl, hsig⟩ := hrest
    have hlt : sig < 256 ^ 4 := by
      rcases hsig with h | h <;> rw [h] <;> decide
    have hempty : acc.isEmpty = false := by
      cases acc with
      | nil => exact absurd rfl hne
      | cons a as => rfl
    have hread : readLe 4 (records [] ++ (leBytes 4 sig ++ d)) = some (sig, d) := readLe_leBytes _ hlt
    refine .done ?_
    unfold walkTurn
    dsimp only
    rw [hread]
    dsimp only
    rw [if_pos hsig, finishWalk, hempty, List.append_nil]
    rfl
  | cons e es ih =>
    have hsize : totalSize (e :: es) = e.data.length + totalSize es := by
      simp [totalSize]
    have he := hfits e List.mem_cons_self
    have hrec : records (e :: es) ++ rest =
        localRecord (utf8Encode e.name) e.data ++ (records es ++ rest) := by
      simp [records, List.append_assoc]
    rw [List.length_cons] at hcount
    rw [hrec]
    refine .next (walkTurn_record inflate he.1 he.2 (by omega) (by omega)) ?_
    have hnext : Runs (walkTurn inflate)
        ⟨records es ++ rest, acc ++ [e], total + e.data.length⟩ (.ok ((acc ++ [e]) ++ es)) :=
      ih (fun e' he' => hfits e' (List.mem_cons_of_mem _ he')) (by omega)
        (by rw [List.length_append, List.length_singleton]; omega) (by simp)
    rwa [List.append_assoc] at hnext

end

/-! ## §2. The shape of a finished archive -/

/-- The records of the central directory, for local records that start at `offset`. -/
def directoryFrom : Nat → List ZipEntry → Bytes
  | _, [] => []
  | offset, e :: es =>
    centralRecord (utf8Encode e.name) e.data offset ++
      directoryFrom (offset + (localRecord (utf8Encode e.name) e.data).length) es

/-- The end of central directory record. -/
def endRecord (count size offset : Nat) : Bytes :=
  leBytes 4 0x06054B50 ++ (leBytes 2 0 ++ (leBytes 2 0 ++ (leBytes 2 count ++ (leBytes 2 count ++
    (leBytes 4 size ++ (leBytes 4 offset ++ leBytes 2 0))))))

theorem add_eq {w : ZipWriter} {e : ZipEntry} (h : (w.add e).overflowed = false) :
    w.add e = ⟨w.out ++ localRecord (utf8Encode e.name) e.data,
      w.directory ++ centralRecord (utf8Encode e.name) e.data w.out.length, w.count + 1,
      w.overflowed⟩ ∧ w.count + 1 < 2 ^ 16 := by
  unfold ZipWriter.add at h ⊢
  dsimp only at h ⊢
  split at h
  · exact absurd h (by simp)
  next hsmall =>
    split at h
    · exact absurd h (by simp)
    next hcount =>
      rw [if_neg hsmall, if_neg hcount]
      exact ⟨rfl, Nat.lt_of_not_le hcount⟩

/-- What the writer has after adding entries without overflow. -/
theorem foldl_add {entries : List ZipEntry} {w : ZipWriter}
    (h : (entries.foldl ZipWriter.add w).overflowed = false) :
    entries.foldl ZipWriter.add w = ⟨w.out ++ records entries,
      w.directory ++ directoryFrom w.out.length entries, w.count + entries.length, w.overflowed⟩ ∧
      (entries ≠ [] → w.count + entries.length < 2 ^ 16) := by
  induction entries generalizing w with
  | nil => simp [records, directoryFrom]
  | cons e es ih =>
    rw [List.foldl_cons] at h ⊢
    have hadd : (w.add e).overflowed = false := by
      cases hover : (w.add e).overflowed with
      | false => rfl
      | true =>
        rw [foldl_overflowed es hover] at h
        exact absurd h (by simp)
    obtain ⟨heq, hcount⟩ := add_eq hadd
    obtain ⟨hrest, hrestCount⟩ := ih h
    rw [hrest, heq]
    refine ⟨?_, ?_⟩
    · simp only [records, directoryFrom, List.map_cons, List.flatten_cons, List.append_assoc,
        List.length_append, List.length_cons, ZipWriter.mk.injEq, true_and, and_true]
      omega
    · intro _
      by_cases hes : es = []
      · rw [hes, List.length_singleton]
        exact hcount
      · have hlt := hrestCount hes
        rw [heq] at hlt
        rw [List.length_cons]
        dsimp only at hlt
        omega

/-- **The shape of a finished archive**: records, directory, end record. -/
theorem writeZip_eq {entries : List ZipEntry} {archive : Bytes}
    (h : writeZip entries = some archive) :
    archive = records entries ++ (directoryFrom 0 entries ++
        endRecord entries.length (directoryFrom 0 entries).length (records entries).length) ∧
      Fits entries ∧ entries.length < 2 ^ 16 ∧ (records entries).length < 2 ^ 32 ∧
      (directoryFrom 0 entries).length < 2 ^ 32 := by
  unfold writeZip at h
  generalize hw : entries.foldl ZipWriter.add ZipWriter.new = w at h
  unfold ZipWriter.finish at h
  split at h
  · exact absurd h (by simp)
  next hover =>
    split at h
    · exact absurd h (by simp)
    next hsmall =>
      have hok : (entries.foldl ZipWriter.add ZipWriter.new).overflowed = false := by
        rw [hw]
        simpa using hover
      have hholds : Holds (entries.foldl ZipWriter.add ZipWriter.new) entries :=
        holds_foldl holds_new hok
      obtain ⟨heq, hcount⟩ := foldl_add hok
      have hshape : w = ⟨records entries, directoryFrom 0 entries, entries.length, false⟩ := by
        rw [← hw, heq]
        simp [ZipWriter.new]
      simp only [Bool.or_eq_true, decide_eq_true_eq, not_or, Nat.not_le] at hsmall
      rw [hshape] at h hsmall
      injection h with h
      refine ⟨?_, hholds.fits, ?_, hsmall.1, hsmall.2⟩
      · rw [← h]
        simp only [endRecord, List.append_assoc]
      · by_cases hes : entries = []
        · rw [hes]
          decide
        · have hlt := hcount hes
          simpa [ZipWriter.new] using hlt

/-- **The walk reads the entries that were added**, within its ceilings. -/
theorem readZip_writeZip (inflate : Bytes → Nat → Except String Bytes) {entries : List ZipEntry}
    {archive : Bytes} (h : writeZip entries = some archive) (hne : entries ≠ [])
    (htotal : totalSize entries ≤ maxBytes) (hcount : entries.length ≤ maxEntries) :
    readZip inflate archive = .ok entries := by
  obtain ⟨harchive, hfits, -⟩ := writeZip_eq h
  have hrest : ∃ sig d, directoryFrom 0 entries ++
      endRecord entries.length (directoryFrom 0 entries).length (records entries).length =
        leBytes 4 sig ++ d ∧ (sig = 0x02014B50 ∨ sig = 0x06054B50) := by
    cases entries with
    | nil => exact absurd rfl hne
    | cons e es =>
      obtain ⟨d, hd⟩ := centralRecord_signature (utf8Encode e.name) e.data 0
      refine ⟨0x02014B50, ?_, ?_, Or.inl rfl⟩
      rotate_left
      · rw [directoryFrom, hd]
        simp only [List.append_assoc]
        rfl
  have hrun : Runs (walkTurn inflate) ⟨archive, [], 0⟩ (.ok ([] ++ entries)) := by
    rw [harchive]
    exact runs_records inflate hfits (by omega) (by simpa using hcount) (by simpa using hne) hrest
  have hloop := loop_of_runs (fun s => s.cursor.length) (fun s s' h => walkTurn_drop inflate h)
    hrun (Nat.lt_succ_self _)
  rw [readZip_total] at hloop
  exact Option.some.inj hloop

/-! ## §3. The central directory -/

/-- What a central directory record says about its entry. -/
structure CentralEntry where
  name : Text
  crc : Nat
  compressedLen : Nat
  uncompressedLen : Nat
  offset : Nat
  deriving Repr, DecidableEq

/-- Little-endian fields of the given widths. -/
def readFields : List Nat → Bytes → Option (List Nat × Bytes)
  | [], cursor => some ([], cursor)
  | width :: widths, cursor => do
    let (value, c) ← readLe width cursor
    let (values, c) ← readFields widths c
    return (value :: values, c)

/-- One central directory record, as the ZIP format lays it out. -/
def readCentral (cursor : Bytes) : Option (CentralEntry × Bytes) := do
  let (fields, c) ← readFields [4, 2, 2, 2, 2, 2, 2, 4, 4, 4, 2, 2, 2, 2, 2, 4, 4] cursor
  match fields with
  | [0x02014B50, _, _, _, _, _, _, crc, compressedLen, uncompressedLen, nameLen, extraLen,
      commentLen, _, _, _, offset] =>
    let (nameBytes, c) ← take nameLen c
    let (_, c) ← take extraLen c
    let (_, c) ← take commentLen c
    return (⟨fromUtf8Lossy nameBytes, crc, compressedLen, uncompressedLen, offset⟩, c)
  | _ => none

/-- `count` records, with nothing after them. -/
def readCentrals : Nat → Bytes → Option (List CentralEntry)
  | 0, cursor => if cursor = [] then some [] else none
  | count + 1, cursor => do
    let (entry, c) ← readCentral cursor
    let entries ← readCentrals count c
    return entry :: entries

/-- The central directory, found through the end record that closes the archive. -/
def centralDirectory (archive : Bytes) : Option (List CentralEntry) := do
  let (fields, _) ← readFields [4, 2, 2, 2, 2, 4, 4] (archive.drop (archive.length - 22))
  match fields with
  | [0x06054B50, _, _, _, count, size, offset] =>
    readCentrals count ((archive.drop offset).take size)
  | _ => none

/-- The directory says of an entry what its local record says, and where that record is. -/
structure Lists (archive : Bytes) (entry : ZipEntry) (central : CentralEntry) : Prop where
  name : central.name = entry.name
  crc : central.crc = crc32 entry.data
  compressed : central.compressedLen = entry.data.length
  uncompressed : central.uncompressedLen = entry.data.length
  here : ∃ rest, archive.drop central.offset =
    localRecord (utf8Encode entry.name) entry.data ++ rest

/-- Fields of the given widths and values. -/
def writeFields (fields : List (Nat × Nat)) : Bytes := fields.flatMap fun f => leBytes f.1 f.2

theorem readFields_write {fields : List (Nat × Nat)} (rest : Bytes)
    (h : ∀ f ∈ fields, f.2 < 256 ^ f.1) :
    readFields (fields.map Prod.fst) (writeFields fields ++ rest) =
      some (fields.map Prod.snd, rest) := by
  induction fields with
  | nil => rfl
  | cons f fs ih =>
    have hrest := ih fun f' hf' => h f' (List.mem_cons_of_mem _ hf')
    rw [List.map_cons, readFields, writeFields, List.flatMap_cons, List.append_assoc,
      readLe_leBytes _ (h f List.mem_cons_self)]
    show (readFields (fs.map Prod.fst) (writeFields fs ++ rest)).bind _ = _
    rw [hrest]
    rfl

/-- The fixed part of a central directory record. -/
def centralFields (nameBytes content : Bytes) (offset : Nat) : List (Nat × Nat) :=
  [(4, 0x02014B50), (2, 0x0314), (2, 20), (2, nameFlags nameBytes), (2, 0), (2, 0), (2, 0),
    (4, crc32 content), (4, content.length), (4, content.length), (2, nameBytes.length), (2, 0),
    (2, 0), (2, 0), (2, 0), (4, 0x81A40000), (4, offset)]

theorem centralRecord_fields (nameBytes content : Bytes) (offset : Nat) :
    centralRecord nameBytes content offset =
      writeFields (centralFields nameBytes content offset) ++ nameBytes := by
  simp only [centralRecord, sharedFields, centralFields, writeFields, List.flatMap_cons,
    List.flatMap_nil, List.append_assoc, List.append_nil]

theorem centralFields_fit {nameBytes content : Bytes} {offset : Nat}
    (hname : nameBytes.length < 2 ^ 16) (hlen : content.length < 2 ^ 32)
    (hoffset : offset < 2 ^ 32) :
    ∀ f ∈ centralFields nameBytes content offset, f.2 < 256 ^ f.1 := by
  have hflags : nameFlags nameBytes < 256 ^ 2 := by
    rcases nameFlags_cases nameBytes with h | h <;> rw [h] <;> decide
  simp only [centralFields, List.forall_mem_cons, List.not_mem_nil, false_implies, implies_true,
    and_true]
  exact ⟨by decide, by decide, by decide, hflags, by decide, by decide, by decide,
    crc32_lt content, hlen, hlen, hname, by decide, by decide, by decide, by decide, by decide,
    hoffset⟩

theorem readCentral_record {nameBytes content : Bytes} {offset : Nat} (rest : Bytes)
    (hname : nameBytes.length < 2 ^ 16) (hlen : content.length < 2 ^ 32)
    (hoffset : offset < 2 ^ 32) :
    readCentral (centralRecord nameBytes content offset ++ rest) =
      some (⟨fromUtf8Lossy nameBytes, crc32 content, content.length, content.length, offset⟩,
        rest) := by
  have hfields : readFields [4, 2, 2, 2, 2, 2, 2, 4, 4, 4, 2, 2, 2, 2, 2, 4, 4]
      (writeFields (centralFields nameBytes content offset) ++ (nameBytes ++ rest)) =
        some ((centralFields nameBytes content offset).map Prod.snd, nameBytes ++ rest) :=
    readFields_write _ (centralFields_fit hname hlen hoffset)
  unfold readCentral
  rw [centralRecord_fields, List.append_assoc, hfields]
  show (take nameBytes.length (nameBytes ++ rest)).bind _ = _
  rw [take_append rest rfl]
  simp only [Option.bind_some, Option.bind_eq_bind, take_zero]
  rfl

/-- The records of a directory, read in order. -/
theorem readCentrals_directory {archive front : Bytes} {entries : List ZipEntry} {after : Bytes}
    (hfits : Fits entries) (harchive : archive = front ++ (records entries ++ after))
    (hsize : (front ++ records entries).length < 2 ^ 32) :
    ∃ index, readCentrals entries.length (directoryFrom front.length entries) = some index ∧
      List.Forall₂ (Lists archive) entries index := by
  induction entries generalizing front with
  | nil => exact ⟨[], rfl, .nil⟩
  | cons e es ih =>
    have he := hfits e List.mem_cons_self
    have hrecords : records (e :: es) =
        localRecord (utf8Encode e.name) e.data ++ records es := by
      simp [records]
    rw [hrecords] at harchive hsize
    have hfront : front.length < 2 ^ 32 := by
      simp only [List.length_append] at hsize
      omega
    have hnext : archive = (front ++ localRecord (utf8Encode e.name) e.data) ++
        (records es ++ after) := by
      rw [harchive]
      simp only [List.append_assoc]
    obtain ⟨index, hindex, hall⟩ := ih (fun e' he' => hfits e' (List.mem_cons_of_mem _ he')) hnext
      (by rwa [List.append_assoc])
    refine ⟨⟨fromUtf8Lossy (utf8Encode e.name), crc32 e.data, e.data.length, e.data.length,
      front.length⟩ :: index, ?_, .cons ⟨fromUtf8Lossy_utf8Encode _, rfl, rfl, rfl, ?_⟩ hall⟩
    · rw [List.length_cons, readCentrals, directoryFrom, readCentral_record _ he.1 he.2 hfront]
      rw [List.length_append] at hindex
      show (readCentrals es.length (directoryFrom _ es)).bind _ = _
      rw [hindex]
      rfl
    · refine ⟨records es ++ after, ?_⟩
      show archive.drop front.length = _
      rw [harchive, List.drop_left, List.append_assoc]

theorem endRecord_length (count size offset : Nat) : (endRecord count size offset).length = 22 := by
  simp only [endRecord, List.length_append, leBytes_length]

/-- **The directory lists the entries that were added.** -/
theorem centralDirectory_writeZip {entries : List ZipEntry} {archive : Bytes}
    (h : writeZip entries = some archive) :
    ∃ index, centralDirectory archive = some index ∧
      List.Forall₂ (Lists archive) entries index := by
  obtain ⟨harchive, hfits, hcount, hsize, hdir⟩ := writeZip_eq h
  have hfront : archive = [] ++ (records entries ++ (directoryFrom 0 entries ++
      endRecord entries.length (directoryFrom 0 entries).length (records entries).length)) := by
    rw [harchive]
    rfl
  obtain ⟨index, hindex, hall⟩ := readCentrals_directory hfits hfront hsize
  refine ⟨index, ?_, hall⟩
  have hend : archive.drop (archive.length - 22) =
      endRecord entries.length (directoryFrom 0 entries).length (records entries).length := by
    rw [harchive, ← List.append_assoc, List.length_append, endRecord_length, Nat.add_sub_cancel,
      List.drop_left]
  have hpart : (archive.drop (records entries).length).take (directoryFrom 0 entries).length =
      directoryFrom 0 entries := by
    rw [harchive, List.drop_left, List.take_left]
  have hfields : readFields [4, 2, 2, 2, 2, 4, 4] (archive.drop (archive.length - 22)) =
      some ([0x06054B50, 0, 0, entries.length, entries.length, (directoryFrom 0 entries).length,
        (records entries).length], leBytes 2 0) := by
    have hshape : endRecord entries.length (directoryFrom 0 entries).length
        (records entries).length = writeFields [(4, 0x06054B50), (2, 0), (2, 0),
          (2, entries.length), (2, entries.length), (4, (directoryFrom 0 entries).length),
          (4, (records entries).length)] ++ leBytes 2 0 := by
      simp only [endRecord, writeFields, List.flatMap_cons, List.flatMap_nil, List.append_assoc,
        List.append_nil]
    have hfit : ∀ f ∈ [(4, 0x06054B50), (2, 0), (2, 0), (2, entries.length), (2, entries.length),
        (4, (directoryFrom 0 entries).length), (4, (records entries).length)], f.2 < 256 ^ f.1 := by
      simp only [List.forall_mem_cons, List.not_mem_nil, false_implies, implies_true, and_true]
      exact ⟨by decide, by decide, by decide, hcount, hcount, hdir, hsize⟩
    rw [hend, hshape]
    exact readFields_write _ hfit
  unfold centralDirectory
  rw [hfields]
  show readCentrals entries.length
    ((archive.drop (records entries).length).take (directoryFrom 0 entries).length) = some index
  rw [hpart]
  exact hindex

/-! ## §4. The writer and the verifier -/

/-- What the verifier finds in a finished container. -/
structure InOrder (X : Surroundings) (objects : List DataObject) (algorithm : DigestAlgorithm)
    (signature container : Bytes) : Prop where
  /-- The walk gives the mimetype, the objects in order, the manifest and the signature. -/
  entries : readZip X.inflate container =
    .ok ((plan X.externals objects algorithm).finishedEntries signature)
  /-- The manifest has one reference for each object, with its name and digest. -/
  refs : parseManifest (plan X.externals objects algorithm).manifest =
    .ok (objects.map (refOf X.externals algorithm))
  /-- Every digest matches. -/
  digests : ∀ file ∈ checkDigests X ((plan X.externals objects algorithm).finishedEntries signature)
    (objects.map (refOf X.externals algorithm)), file.digestOk = true
  /-- No file is uncovered. -/
  covered : flagUncoveredFiles ((plan X.externals objects algorithm).finishedEntries signature)
    (objects.map (refOf X.externals algorithm)) = []
  /-- The directory lists the same entries, each with its local record. -/
  directory : ∃ index, centralDirectory container = some index ∧
    List.Forall₂ (Lists container)
      ((plan X.externals objects algorithm).finishedEntries signature) index

theorem finished_object {container : ContainerPlan} {signature : Bytes}
    (hnames : NamesOk [] container.objects) {o : DataObject} (ho : o ∈ container.objects) :
    (container.finishedEntries signature).find? (fun e => e.name = o.name) =
      some ⟨o.name, o.content⟩ := by
  have hmime : ¬ mimetypeEntry = o.name := by
    intro h
    have husable := hnames.usable o ho
    rw [← h, reserved_unusable.1] at husable
    exact absurd husable (by simp)
  unfold ContainerPlan.finishedEntries
  rw [List.append_assoc, List.find?_append, List.find?_append, find_object hnames.nodup ho]
  simp [hmime]

theorem furniture_isData {name : Text} (data : Bytes)
    (h : (chars "META-INF/").isPrefixOf name = true) : ZipEntry.isData ⟨name, data⟩ = false := by
  simp [ZipEntry.isData, h]

/-- **The writer and the verifier agree** on every nonempty set of files the writer takes. -/
theorem writer_verifier_agree (X : Surroundings) (objects : List DataObject)
    (algorithm : DigestAlgorithm) (signature container : Bytes)
    (hnames : checkObjectNames objects = .ok ()) (hne : objects ≠ [])
    (hcount : objects.length < 4092)
    (htotal : totalSize ((plan X.externals objects algorithm).finishedEntries signature) ≤ maxBytes)
    (hfinish : (plan X.externals objects algorithm).finish signature = some container) :
    InOrder X objects algorithm signature container := by
  have hok : NamesOk [] objects := checkObjectNames_nodup hnames
  refine ⟨?_, ?_, ?_, ?_, centralDirectory_writeZip hfinish⟩
  · refine readZip_writeZip X.inflate hfinish (by simp [ContainerPlan.finishedEntries]) htotal ?_
    have hlen : ((plan X.externals objects algorithm).finishedEntries signature).length =
        objects.length + 3 := by
      simp [ContainerPlan.finishedEntries, plan]
    rw [hlen]
    show objects.length + 3 ≤ 4096
    omega
  · exact parseManifest_written hne (by decide) (by decide)
  · intro file hfile
    simp only [checkDigests, List.map_map, List.mem_map] at hfile
    obtain ⟨o, ho, rfl⟩ := hfile
    rw [Function.comp_apply, checkDigest_ok]
    refine ⟨⟨o.name, o.content⟩, ?_, rfl⟩
    unfold lookup
    have hfind : ((plan X.externals objects algorithm).finishedEntries signature).find?
        (fun e => e.name = o.name) = some ⟨o.name, o.content⟩ := finished_object hok ho
    rw [show (refOf X.externals algorithm o).uri = o.name from rfl, hfind]
    rfl
  · rw [flagUncoveredFiles, List.map_eq_nil_iff, List.filter_eq_nil_iff]
    intro e he
    simp only [ContainerPlan.finishedEntries, List.mem_append, List.mem_cons, List.mem_map,
      List.not_mem_nil, or_false] at he
    rcases he with (rfl | ⟨o, ho, rfl⟩) | rfl | rfl
    · simp [ZipEntry.isData, mimetypeEntry]
    · have hcov : ((objects.map (refOf X.externals algorithm)).any fun r =>
          r.covers ⟨o.name, o.content⟩) = true := by
        rw [List.any_eq_true]
        exact ⟨refOf X.externals algorithm o, List.mem_map.mpr ⟨o, ho, rfl⟩,
          by simp [ManifestRef.covers, refOf]⟩
      simp [hcov]
    · simp [furniture_isData _ (show (chars "META-INF/").isPrefixOf manifestEntry = true by decide)]
    · simp [furniture_isData _ (show (chars "META-INF/").isPrefixOf signatureEntry = true by decide)]

/-- One file with a name that needs both escapes, and a media type with a `>`. -/
def sampleObjects : List DataObject :=
  [⟨chars "a&b #1.txt", chars "text/x>y", utf8Encode (chars "pay 1")⟩]

theorem sampleObjects_inOrder : ∃ container,
    (plan sampleSurroundings.externals sampleObjects .sha256).finish [0x30, 0x00] =
      some container ∧
    InOrder sampleSurroundings sampleObjects .sha256 [0x30, 0x00] container := by
  have hsome : ((plan sampleSurroundings.externals sampleObjects .sha256).finish
      [0x30, 0x00]).isSome = true := by decide +kernel
  obtain ⟨container, hcontainer⟩ := Option.isSome_iff_exists.mp hsome
  exact ⟨container, hcontainer, writer_verifier_agree sampleSurroundings sampleObjects .sha256
    [0x30, 0x00] container (by decide +kernel) (by decide) (by decide) (by decide +kernel)
    hcontainer⟩

/-- **No file, no manifest**: the writer takes an empty set, whose manifest the verifier
    refuses. -/
theorem empty_not_inOrder : ∃ container, checkObjectNames [] = .ok () ∧
    totalSize ((plan sampleSurroundings.externals [] .sha256).finishedEntries [0x30, 0x00]) ≤
      maxBytes ∧
    (plan sampleSurroundings.externals [] .sha256).finish [0x30, 0x00] = some container ∧
    ¬ InOrder sampleSurroundings [] .sha256 [0x30, 0x00] container := by
  have hsome : ((plan sampleSurroundings.externals [] .sha256).finish [0x30, 0x00]).isSome =
      true := by decide +kernel
  obtain ⟨container, hcontainer⟩ := Option.isSome_iff_exists.mp hsome
  refine ⟨container, rfl, by decide +kernel, hcontainer, ?_⟩
  intro h
  have hparse : parseManifest (plan sampleSurroundings.externals [] .sha256).manifest =
      .error (.manifest "no DataObjectReference entries") := by decide +kernel
  have hrefs := h.refs
  rw [hparse] at hrefs
  exact absurd hrefs (by simp)

end Asic

end RefineId
