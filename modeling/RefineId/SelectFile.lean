/-
  RefineId.SelectFile — the SELECT FILE command on the wire.
  ════════════════════════════════════════════════════════════════════════════

  `crates/refineid-lib-core/src/apdu/iso7816.rs` builds the command from typed parts; the
  length octet comes from `data_len`, the data from `append_data`.  Secure messaging takes
  the same octets apart again with `decode_short_apdu`.

  Main results:
    • `decodeShortApdu_built` : header, length, data and `Le` are split where they were joined.
    • `dataLen_eq`            : the two functions agree on the length of the data.
    • `splitsBack_iff`        : every command is split back, but for paths of more than 127
                                file identifiers.
-/
import RefineId.SecureMessaging

namespace RefineId

namespace Iso7816

open SecureMessaging (decodeShortApdu decodeShortApdu_spec)

/-! ## §1. Typed parts -/

/-- `ApduClass`. -/
inductive ApduClass where
  | plain
  | secureMessaging
  | chainedFirst
  deriving Repr, DecidableEq

/-- `ApduClass::as_byte`. -/
def ApduClass.asByte : ApduClass → UInt8
  | .plain => 0x00
  | .secureMessaging => 0x0C
  | .chainedFirst => 0x10

/-- `FileId`: two octets. -/
structure FileId where
  first : UInt8
  second : UInt8
  deriving Repr, DecidableEq

/-- `FileId::as_bytes`. -/
def FileId.asBytes (fid : FileId) : Bytes := [fid.first, fid.second]

/-- `FileId::MF`. -/
def FileId.mf : FileId := ⟨0x3F, 0x00⟩

/-- `Aid`: 5 to 16 octets. -/
structure Aid where
  bytes : Bytes
  length_pos : 5 ≤ bytes.length
  length_le : bytes.length ≤ 16
  deriving Repr, DecidableEq

/-- `AbsolutePathError`. -/
inductive AbsolutePathError where
  | empty
  | startsWithMf
  deriving Repr, DecidableEq

/-- `AbsolutePath`: what its constructor admits. -/
structure AbsolutePath where
  fids : List FileId
  nonempty : fids ≠ []
  relative : fids.head? ≠ some FileId.mf
  deriving Repr, DecidableEq

/-- `AbsolutePath::new`. -/
def AbsolutePath.new (fids : List FileId) : Except AbsolutePathError AbsolutePath :=
  if hempty : fids = [] then .error .empty
  else if hmf : fids.head? = some FileId.mf then .error .startsWithMf
  else .ok ⟨fids, hempty, hmf⟩

/-- `SelectFileTarget`. -/
inductive SelectFileTarget where
  | anyByFileId (fid : Option FileId)
  | efUnderCurrentDf (fid : FileId)
  | byName (aid : Aid)
  | absolutePath (path : AbsolutePath)
  deriving Repr, DecidableEq

/-- `SelectFileTarget::as_p1`. -/
def SelectFileTarget.asP1 : SelectFileTarget → UInt8
  | .anyByFileId _ => 0x00
  | .efUnderCurrentDf _ => 0x02
  | .byName _ => 0x04
  | .absolutePath _ => 0x08

/-- `SelectFileTarget::data_len`. -/
def SelectFileTarget.dataLen : SelectFileTarget → Nat
  | .anyByFileId none => 0
  | .anyByFileId (some _) | .efUnderCurrentDf _ => 2
  | .byName aid => aid.bytes.length
  | .absolutePath path => min (path.fids.length * 2) usizeMax

/-- `SelectFileTarget::append_data`. -/
def SelectFileTarget.data : SelectFileTarget → Bytes
  | .anyByFileId none => []
  | .anyByFileId (some fid) | .efUnderCurrentDf fid => fid.asBytes
  | .byName aid => aid.bytes
  | .absolutePath path => path.fids.flatMap FileId.asBytes

/-- `SelectFileResponseMode`. -/
inductive SelectFileResponseMode where
  | fci
  | fcp
  | none
  deriving Repr, DecidableEq

/-- `SelectFileResponseMode::as_p2`. -/
def SelectFileResponseMode.asP2 : SelectFileResponseMode → UInt8
  | .fci => 0x00
  | .fcp => 0x04
  | .none => 0x0C

/-- Whether a response template is asked for. -/
def SelectFileResponseMode.asksTemplate : SelectFileResponseMode → Bool
  | .fci | .fcp => true
  | .none => false

/-- `SelectFile`. -/
structure SelectFile where
  class_ : ApduClass
  target : SelectFileTarget
  responseMode : SelectFileResponseMode
  deriving Repr, DecidableEq

/-- The four octets before the body. -/
def SelectFile.header (c : SelectFile) : Bytes :=
  [c.class_.asByte, 0xA4, c.target.asP1, c.responseMode.asP2]

/-- `u8::try_from(data_len).unwrap_or(u8::MAX)`. -/
def lcByte (dataLen : Nat) : UInt8 := if dataLen ≤ 255 then UInt8.ofNat dataLen else 0xFF

/-- `LE_ANY`, where a response is expected. -/
def SelectFile.le (c : SelectFile) : Option UInt8 :=
  if c.responseMode.asksTemplate then some 0x00 else none

/-- `SelectFile::into_apdu`. -/
def SelectFile.intoApdu (c : SelectFile) : CommandApdu :=
  let dataLen := c.target.dataLen
  let body := if 0 < dataLen then lcByte dataLen :: c.target.data else []
  .new (c.header ++ body ++ c.le.toList)

/-! ## §2. Splitting a command -/

/-- Header, length, data and `Le` are split where they were joined. -/
theorem decodeShortApdu_built {header data : Bytes} (hheader : header.length = 4)
    (hpos : 0 < data.length) (hshort : data.length ≤ 255) (le : Option UInt8) :
    decodeShortApdu (header ++ UInt8.ofNat data.length :: data ++ le.toList) = some (data, le) := by
  obtain ⟨a, b, c, d, rfl⟩ : ∃ a b c d, header = [a, b, c, d] := by
    match header with
    | [a, b, c, d] => exact ⟨a, b, c, d, rfl⟩
  have hlc : (UInt8.ofNat data.length).toNat = data.length := by
    rw [Ber.uint8_ofNat_toNat, Nat.mod_eq_of_lt (by omega)]
  cases le with
  | none =>
    have hlength : ([a, b, c, d] ++ UInt8.ofNat data.length :: data ++ (none : Option UInt8).toList).length
        = 5 + data.length := by
      simp
      omega
    simp only [decodeShortApdu, hlength]
    rw [if_neg (by omega), if_neg (by omega)]
    simp [hlc]
  | some le =>
    have hlength : ([a, b, c, d] ++ UInt8.ofNat data.length :: data ++ (some le).toList).length
        = 5 + data.length + 1 := by
      simp
      omega
    have hget : ([a, b, c, d] ++ UInt8.ofNat data.length :: data ++ (some le).toList)[5 + data.length]?
        = some le := by
      have hfront : ([a, b, c, d] ++ UInt8.ofNat data.length :: data).length = 5 + data.length := by
        simp
        omega
      rw [← hfront, List.getElem?_append_right (le_refl _), Nat.sub_self]
      rfl
    have hbody : (([a, b, c, d] ++ UInt8.ofNat data.length :: data ++ (some le).toList).drop 5).take
        data.length = data := by
      simp
    have hfour : ([a, b, c, d] ++ UInt8.ofNat data.length :: data ++ (some le).toList)[4]? =
        some (UInt8.ofNat data.length) := by
      simp
    simp only [decodeShortApdu, hlength, hfour, Option.bind_eq_bind, Option.bind_some, hlc, hget,
      hbody]
    rw [if_neg (by omega), if_neg (by omega), if_neg (by omega), if_neg (by omega), if_pos trivial]
    rfl

theorem decodeShortApdu_bare {header : Bytes} (hheader : header.length = 4) (le : Option UInt8) :
    decodeShortApdu (header ++ le.toList) = some ([], le) := by
  obtain ⟨a, b, c, d, rfl⟩ : ∃ a b c d, header = [a, b, c, d] := by
    match header with
    | [a, b, c, d] => exact ⟨a, b, c, d, rfl⟩
  cases le <;> rfl

theorem pathData_length (fids : List FileId) : (fids.flatMap FileId.asBytes).length = fids.length * 2 := by
  induction fids with
  | nil => rfl
  | cons fid fids ih =>
    rw [List.flatMap_cons, List.length_append, ih, List.length_cons]
    simp only [FileId.asBytes, List.length_cons, List.length_nil]
    omega

/-- **The length that is announced is that of the data**, up to the largest `usize`. -/
theorem dataLen_eq (target : SelectFileTarget) :
    target.dataLen = min target.data.length usizeMax := by
  have hmax : (2 : Nat) ≤ usizeMax := by decide
  have haid : (16 : Nat) ≤ usizeMax := by decide
  match target with
  | .anyByFileId none => rfl
  | .anyByFileId (some fid) => rfl
  | .efUnderCurrentDf fid => rfl
  | .byName aid => exact (min_eq_left (aid.length_le.trans haid)).symm
  | .absolutePath path =>
    simp only [SelectFileTarget.dataLen, SelectFileTarget.data, pathData_length]

/-! ## §3. Well-formed commands -/

/-- **The command is split back** into the parts it was built from. -/
structure SplitsBack (c : SelectFile) : Prop where
  header : c.intoApdu.bytes.take 4 = c.header
  short : c.intoApdu.bytes.length ≤ 4 + 1 + 255 + 1
  decodes : decodeShortApdu c.intoApdu.bytes =
    some (c.target.data, if c.responseMode.asksTemplate then some 0x00 else none)

/-- Targets whose data the one length octet can announce. -/
theorem splitsBack_of_short {c : SelectFile} (h : c.target.data.length ≤ 255) : SplitsBack c := by
  have hheader : c.header.length = 4 := rfl
  have hmax : (255 : Nat) ≤ usizeMax := by decide
  have hlen : c.target.dataLen = c.target.data.length := by
    rw [dataLen_eq, min_eq_left (h.trans hmax)]
  have hle : c.le.toList.length ≤ 1 := by
    cases c.le <;> simp
  have hbytes : c.intoApdu.bytes = c.header ++
      (if 0 < c.target.data.length then lcByte c.target.data.length :: c.target.data else []) ++
      c.le.toList := by
    rw [← hlen]
    rfl
  by_cases hpos : 0 < c.target.data.length
  · rw [if_pos hpos, lcByte, if_pos h] at hbytes
    refine ⟨?_, ?_, ?_⟩
    · rw [hbytes, List.append_assoc, ← hheader, List.take_left]
    · rw [hbytes]
      simp only [List.length_append, List.length_cons, hheader]
      omega
    · rw [hbytes]
      exact decodeShortApdu_built hheader hpos h c.le
  · have hnil : c.target.data = [] := List.eq_nil_of_length_eq_zero (by omega)
    rw [if_neg hpos, List.append_nil] at hbytes
    refine ⟨?_, ?_, ?_⟩
    · rw [hbytes, ← hheader, List.take_left]
    · rw [hbytes]
      simp only [List.length_append, hheader]
      omega
    · rw [hbytes, hnil]
      exact decodeShortApdu_bare hheader c.le

theorem data_le_of_not_path {target : SelectFileTarget}
    (h : ∀ path, target = .absolutePath path → path.fids.length ≤ 127) :
    target.data.length ≤ 255 := by
  match target with
  | .anyByFileId none => decide
  | .anyByFileId (some fid) => exact (show 2 ≤ 255 by decide)
  | .efUnderCurrentDf fid => exact (show 2 ≤ 255 by decide)
  | .byName aid => exact aid.length_le.trans (by decide)
  | .absolutePath path =>
    have hpath := h path rfl
    rw [SelectFileTarget.data, pathData_length]
    omega

/-- **A command is split back into its parts exactly if it names no path of more than 127 file
    identifiers**; the constructor of paths sets no such bound. -/
theorem splitsBack_iff (c : SelectFile) :
    SplitsBack c ↔ ∀ path, c.target = .absolutePath path → path.fids.length ≤ 127 := by
  constructor
  · intro hback path hpath
    have hdata := (decodeShortApdu_spec hback.decodes).2
    rw [hpath, SelectFileTarget.data, pathData_length] at hdata
    omega
  · intro hshort
    exact splitsBack_of_short (data_le_of_not_path hshort)

/-- A path of 128 file identifiers. -/
def longPath : AbsolutePath where
  fids := List.replicate 128 ⟨0x50, 0x15⟩
  nonempty := by decide
  relative := by decide

/-- Selected without a response template, that path loses its last octet, which is taken for
    `Le`. -/
theorem longPath_misread :
    AbsolutePath.new (List.replicate 128 ⟨0x50, 0x15⟩) = .ok longPath ∧
    decodeShortApdu (SelectFile.mk .plain (.absolutePath longPath) .none).intoApdu.bytes =
      some ((SelectFileTarget.absolutePath longPath).data.dropLast, some 0x15) ∧
    ¬ SplitsBack ⟨.plain, .absolutePath longPath, .none⟩ := by
  refine ⟨by decide +kernel, by decide +kernel, fun hback => ?_⟩
  have hdata := (decodeShortApdu_spec hback.decodes).2
  exact absurd hdata (by decide +kernel)

end Iso7816

end RefineId
