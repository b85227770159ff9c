/-
  RefineId.Zip — reading the local headers of a ZIP archive.
  ════════════════════════════════════════════════════════════════════════════

  `read_zip` of `crates/refineid-doc-sign/src/asic_verify.rs`.  The walk goes from one
  local file header to the next; the central directory is not consulted.  The cursor is
  what is left of the input.

  Main results:
    • `readZip_total`  : the walk ends on every input.
-/
import RefineId.Ber
import RefineId.Lib.Loop
import RefineId.Lib.Outcome
import RefineId.Lib.Utf8

namespace RefineId

namespace Asic

open Lib

/-! ## §1. Entries and errors -/

/-- `ZipEntry`. -/
structure ZipEntry where
  name : Text
  data : Bytes
  deriving Repr, DecidableEq

/-- `DocumentVerifyError`, less the failure to read the file. -/
inductive DocumentVerifyError where
  | notAContainer
  | unsupported (detail : String)
  | zip (detail : String)
  | manifest (detail : String)
  | cms (detail : String)
  | noSignatures
  deriving Repr, DecidableEq

/-- `MANIFEST_ENTRY`. -/
def manifestEntry : Text := chars "META-INF/ASiCManifest.xml"

/-! ## §2. The cursor -/

/-- `Cursor::take`. -/
def take (n : Nat) (cursor : Bytes) : Option (Bytes × Bytes) :=
  if n ≤ cursor.length then some (cursor.take n, cursor.drop n) else none

/-- Little-endian value. -/
def leValue : Bytes → Nat
  | [] => 0
  | b :: bs => b.toNat + 256 * leValue bs

/-- `Cursor::u16` and `Cursor::u32`. -/
def readLe (n : Nat) (cursor : Bytes) : Option (Nat × Bytes) := do
  let (bytes, rest) ← take n cursor
  return (leValue bytes, rest)

/-- `LocalHeader`. -/
structure LocalHeader where
  flags : Nat
  method : Nat
  compressedLen : Nat
  uncompressedLen : Nat
  nameLen : Nat
  extraLen : Nat
  deriving Repr, DecidableEq

/-- `LocalHeader::read`: version, times and CRC are skipped. -/
def LocalHeader.read (cursor : Bytes) : Option (LocalHeader × Bytes) := do
  let (_, c) ← readLe 2 cursor
  let (flags, c) ← readLe 2 c
  let (method, c) ← readLe 2 c
  let (_, c) ← readLe 2 c
  let (_, c) ← readLe 2 c
  let (_, c) ← readLe 4 c
  let (compressedLen, c) ← readLe 4 c
  let (uncompressedLen, c) ← readLe 4 c
  let (nameLen, c) ← readLe 2 c
  let (extraLen, c) ← readLe 2 c
  return (⟨flags, method, compressedLen, uncompressedLen, nameLen, extraLen⟩, c)

/-! ## §3. The walk -/

/-- `MAX_ENTRIES`, and `MAX_TOTAL_BYTES` and `MAX_ENTRY_BYTES`. -/
def maxEntries : Nat := 4096

def maxBytes : Nat := 512 * 2 ^ 20

section
variable (inflate : Bytes → Nat → Except String Bytes)

/-- The contents of an entry; `inflate` is `miniz_oxide`'s decompressor with a limit. -/
def entryData (header : LocalHeader) (stored : Bytes) : Except DocumentVerifyError Bytes :=
  if header.method = 0 then .ok stored
  else if header.method = 8 then
    (inflate stored maxBytes).mapError fun e => .zip ("deflate error: " ++ e)
  else .error (.zip ("unsupported compression method " ++ toString header.method))

/-- One entry after its signature: the entry and what is left. -/
def readEntry (cursor : Bytes) : Except DocumentVerifyError (ZipEntry × Bytes) := do
  let (header, c) ← okOr (.zip "truncated local header") (LocalHeader.read cursor)
  ensure (header.flags % 2 = 0) (.zip "encrypted entries are not supported")
  ensure (header.flags / 8 % 2 = 0) (.zip "data descriptors are not supported")
  let (nameBytes, c) ← okOr (.zip "truncated entry name") (take header.nameLen c)
  let (_, c) ← okOr (.zip "truncated extra field") (take header.extraLen c)
  let (stored, c) ← okOr (.zip "truncated entry data") (take header.compressedLen c)
  let data ← entryData inflate header stored
  ensure (data.length = header.uncompressedLen) (.zip "entry size does not match its header")
  return (⟨fromUtf8Lossy nameBytes, data⟩, c)

/-- The state of the walk. -/
structure WalkState where
  cursor : Bytes
  entries : List ZipEntry
  total : Nat

/-- The walk is over, with what was read. -/
def finishWalk (entries : List ZipEntry) : Except DocumentVerifyError (List ZipEntry) :=
  if entries.isEmpty then .error .notAContainer else .ok entries

/-- One turn of `while let Some(sig) = cursor.u32()`. -/
def walkTurn (s : WalkState) : Turn WalkState (Except DocumentVerifyError (List ZipEntry)) :=
  match readLe 4 s.cursor with
  | none => .done (finishWalk s.entries)
  | some (sig, c) =>
    -- the central directory, or its end
    if sig = 0x02014B50 ∨ sig = 0x06054B50 then .done (finishWalk s.entries)
    else if sig ≠ 0x04034B50 then
      .done (.error (if s.entries.isEmpty then .notAContainer
        else .zip "entry does not start with a local file header"))
    else match readEntry inflate c with
      | .error e => .done (.error e)
      | .ok (entry, c) =>
        let total := s.total + entry.data.length
        if maxBytes < total then
          .done (.error (.zip "container exceeds the decompressed-size ceiling"))
        else if maxEntries < (s.entries ++ [entry]).length then
          .done (.error (.zip "too many entries"))
        else .next ⟨c, s.entries ++ [entry], total⟩

/-- `read_zip`. -/
def readZip (bytes : Bytes) : Except DocumentVerifyError (List ZipEntry) :=
  (loop (walkTurn inflate) (bytes.length + 1) ⟨bytes, [], 0⟩).getD (.error .notAContainer)

/-! ## §4. The walk ends -/

theorem take_length {n : Nat} {cursor bytes rest : Bytes} (h : take n cursor = some (bytes, rest)) :
    rest.length + n = cursor.length := by
  unfold take at h
  split at h
  next hn =>
    injection h with h
    injection h with _ h2
    rw [← h2, List.length_drop]
    omega
  · exact absurd h (by simp)

theorem readLe_length {n value : Nat} {cursor rest : Bytes}
    (h : readLe n cursor = some (value, rest)) : rest.length + n = cursor.length := by
  simp only [readLe, Option.bind_eq_bind, Option.bind_eq_some_iff] at h
  obtain ⟨⟨bytes, rest'⟩, htake, heq⟩ := h
  injection heq with heq
  injection heq with _ h2
  rw [← h2]
  exact take_length htake

theorem readHeader_length {cursor rest : Bytes} {header : LocalHeader}
    (h : LocalHeader.read cursor = some (header, rest)) : rest.length ≤ cursor.length := by
  simp only [LocalHeader.read, Option.bind_eq_bind, Option.bind_eq_some_iff] at h
  obtain ⟨⟨_, c1⟩, h1, ⟨_, c2⟩, h2, ⟨_, c3⟩, h3, ⟨_, c4⟩, h4, ⟨_, c5⟩, h5, ⟨_, c6⟩, h6, ⟨_, c7⟩, h7,
    ⟨_, c8⟩, h8, ⟨_, c9⟩, h9, ⟨_, c10⟩, h10, heq⟩ := h
  injection heq with heq
  injection heq with _ hrest
  dsimp only at h2 h3 h4 h5 h6 h7 h8 h9 h10 hrest
  have e1 := readLe_length h1
  have e2 := readLe_length h2
  have e3 := readLe_length h3
  have e4 := readLe_length h4
  have e5 := readLe_length h5
  have e6 := readLe_length h6
  have e7 := readLe_length h7
  have e8 := readLe_length h8
  have e9 := readLe_length h9
  have e10 := readLe_length h10
  rw [← hrest]
  omega

theorem readEntry_length {cursor rest : Bytes} {entry : ZipEntry}
    (h : readEntry inflate cursor = .ok (entry, rest)) : rest.length ≤ cursor.length := by
  simp only [readEntry, bind_eq_ok, okOr_eq_ok, pure_eq_ok] at h
  obtain ⟨⟨header, c1⟩, h1, _, _, _, _, ⟨name, c2⟩, h2, ⟨_, c3⟩, h3, ⟨stored, c4⟩, h4, data, _, _, _,
    heq⟩ := h
  injection heq with _ hrest
  dsimp only at h2 h3 h4 hrest
  have e1 := readHeader_length h1
  have e2 := take_length h2
  have e3 := take_length h3
  have e4 := take_length h4
  rw [← hrest]
  omega

theorem walkTurn_drop {s s' : WalkState} (h : walkTurn inflate s = .next s') :
    s'.cursor.length < s.cursor.length := by
  unfold walkTurn at h
  split at h
  · exact absurd h (by simp)
  next sig c hsig =>
    have hc := readLe_length hsig
    split at h
    · exact absurd h (by simp)
    split at h
    · exact absurd h (by simp)
    split at h
    · exact absurd h (by simp)
    next entry c' hentry =>
      have hc' := readEntry_length inflate hentry
      dsimp only at h
      split at h
      · exact absurd h (by simp)
      split at h
      · exact absurd h (by simp)
      injection h with h
      rw [← h]
      show c'.length < s.cursor.length
      omega

/-- **The walk ends on every input**: the bound on its turns is never what stops it. -/
theorem readZip_total (bytes : Bytes) :
    loop (walkTurn inflate) (bytes.length + 1) ⟨bytes, [], 0⟩ = some (readZip inflate bytes) := by
  have hsome : ∃ r, loop (walkTurn inflate) (bytes.length + 1) ⟨bytes, [], 0⟩ = some r :=
    loop_isSome (fun s => s.cursor.length) (fun s s' h => walkTurn_drop inflate h)
      (Nat.lt_succ_self _)
  obtain ⟨r, hr⟩ := hsome
  rw [readZip, hr]
  rfl

end

end Asic

end RefineId
