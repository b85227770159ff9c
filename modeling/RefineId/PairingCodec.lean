/-
  RefineId.PairingCodec — pairing records as stored octets.
  ════════════════════════════════════════════════════════════════════════════

  `crates/refineid-rapp-core/src/persistence.rs` writes one pairing record as a tagged and
  length-framed blob, and a whole set as a counted list of such blobs.  Records of an
  earlier protocol, or whose engine record is in a format the engine does not read, are
  dropped from a set and counted; anything else that is malformed fails the set.

  The engine's own codec, its display names and the certificate parser are parameters;
  what is relied on is `Engine.Codec`.

  Main results:
    • `reads_record`            : what the record reader takes off its input.
    • `decodePairingRecord_iff` : accepted is exactly encoded and a requester's.
-/
import RefineId.PairingRecord
import RefineId.Lib.Reader

namespace RefineId.Pairing

open Lib

variable {E : Engine}

/-! ## §1. Constants and errors -/

/-- `PAIRING_BLOB_MAGIC`: `RAPP-pair-record`. -/
def pairingBlobMagic : Bytes :=
  [0x52, 0x41, 0x50, 0x50, 0x2D, 0x70, 0x61, 0x69, 0x72, 0x2D, 0x72, 0x65, 0x63, 0x6F, 0x72, 0x64]

/-- `PAIRING_BLOB_VERSION`. -/
def pairingBlobVersion : UInt8 := 9

/-- `LAST_EARLIER_PROTOCOL_BLOB_VERSION`. -/
def lastEarlierProtocolBlobVersion : UInt8 := 8

/-- `FIRST_BLOB_VERSION`. -/
def firstBlobVersion : UInt8 := 1

/-- `PAIRING_SET_MAGIC`: `RAPP-pair-set`. -/
def pairingSetMagic : Bytes :=
  [0x52, 0x41, 0x50, 0x50, 0x2D, 0x70, 0x61, 0x69, 0x72, 0x2D, 0x73, 0x65, 0x74]

/-- `PAIRING_SET_VERSION`. -/
def pairingSetVersion : UInt8 := 1

/-- `KEYS_HELD`. -/
def keysHeld : UInt8 := 0

/-- `KEYS_REVOKED`. -/
def keysRevoked : UInt8 := 1

/-- `BOOLEAN_FALSE`. -/
def booleanFalse : UInt8 := 0

/-- `BOOLEAN_TRUE`. -/
def booleanTrue : UInt8 := 1

/-- `PairingCodecError`. -/
inductive PairingCodecError (E : Engine) where
  | badMagic
  | earlierProtocol (found : UInt8)
  | unsupportedVersion (found : UInt8)
  | truncated
  | trailingBytes
  | invalidKeys
  | invalidBoolean
  | invalidText
  | invalidDisplayName
  | oversized
  | pairRecord (error : E.CodecError)
  | notRequester
  | invalidCertificate

/-! ## §2. Writing -/

/-- `boolean_tag`. -/
def booleanTag (value : Bool) : UInt8 := if value then booleanTrue else booleanFalse

/-- `u32::to_be_bytes`. -/
def toBeBytes (n : Nat) : Bytes :=
  [UInt8.ofNat (n / 16777216), UInt8.ofNat (n / 65536), UInt8.ofNat (n / 256), UInt8.ofNat n]

/-- `put_length`. -/
def putLength (length : Nat) : Except (PairingCodecError E) Bytes :=
  if length < 2 ^ 32 then .ok (toBeBytes length) else .error .oversized

/-- `put_bytes`. -/
def putBytes (bytes : Bytes) : Except (PairingCodecError E) Bytes := do
  let length ← putLength bytes.length
  return length ++ bytes

/-- `put_optional_certificate`. -/
def putOptionalCertificate : Option E.Certificate → Except (PairingCodecError E) Bytes
  | some certificate => do
    let der ← putBytes (E.asDer certificate)
    return booleanTrue :: der
  | none => .ok [booleanFalse]

/-- The keys of a record, as `encode_pairing_record` writes them. -/
def putKeys (record : PairingRecord E) : Except (PairingCodecError E) Bytes :=
  match record.pairRecord, record.state with
  | some keys, _ => do
    let encoded ← (E.encodePairRecord keys).mapError .pairRecord
    let framed ← putBytes encoded
    return keysHeld :: framed
  | none, state => do
    let name ← putBytes (utf8Encode (E.displayNameText record.peerDisplayName))
    return keysRevoked :: record.pairId.bytes ++ [booleanTag (state = .revoked true)] ++ name

/-- `encode_pairing_record`. -/
def encodePairingRecord (record : PairingRecord E) : Except (PairingCodecError E) Bytes := do
  let keys ← putKeys record
  let platform ← putBytes (utf8Encode record.peerPlatform)
  let authentication ← putOptionalCertificate record.certificates.authentication
  let signature ← putOptionalCertificate record.certificates.signature
  let root ← putOptionalCertificate record.certificates.root
  let intermediate ← putOptionalCertificate record.certificates.intermediate
  return pairingBlobMagic ++ [pairingBlobVersion] ++ keys ++ platform ++ authentication ++ signature ++
    root ++ intermediate

/-- `encode_pairing_records`. -/
def encodePairingRecords (records : List (PairingRecord E)) : Except (PairingCodecError E) Bytes := do
  let count ← putLength records.length
  let framed ← records.mapM fun record => do
    let blob ← encodePairingRecord record
    putBytes blob
  return pairingSetMagic ++ [pairingSetVersion] ++ count ++ framed.flatten

/-! ## §3. Reading -/

/-- The cursor over a blob. -/
abbrev BlobReader (E : Engine) := Reader (PairingCodecError E) UInt8

/-- `Reader::take`. -/
def takeBytes (count : Nat) : BlobReader E Bytes := Reader.take .truncated count

/-- `Reader::take_u8`. -/
def takeU8 : BlobReader E UInt8 := Reader.next .truncated

/-- `u32::from_be_bytes`. -/
def fromBeBytes (raw : Bytes) : Nat := raw.foldl (fun acc b => acc * 256 + b.toNat) 0

/-- `Reader::take_length`. -/
def takeLength : BlobReader E Nat := do
  let raw ← takeBytes 4
  return fromBeBytes raw

/-- `Reader::take_length_prefixed`. -/
def takeLengthPrefixed : BlobReader E Bytes := do
  let length ← takeLength
  takeBytes length

/-- `Reader::take_text`. -/
def takeText : BlobReader E Text := do
  let bytes ← takeLengthPrefixed
  Reader.lift (okOr .invalidText (fromUtf8 bytes))

/-- `boolean_from_tag`. -/
def booleanFromTag (tag : UInt8) : Except (PairingCodecError E) Bool :=
  if tag = booleanFalse then .ok false
  else if tag = booleanTrue then .ok true
  else .error .invalidBoolean

/-- `boolean_from_tag(reader.take_u8()?)?`. -/
def takeBoolean : BlobReader E Bool := do
  let tag ← takeU8
  Reader.lift (booleanFromTag tag)

/-- A framed certificate, parsed. -/
def takeCertificate : BlobReader E E.Certificate := do
  let der ← takeLengthPrefixed
  Reader.lift (okOr .invalidCertificate (E.fromDer der))

/-- `Reader::take_optional_certificate`. -/
def takeOptionalCertificate : BlobReader E (Option E.Certificate) := do
  let present ← takeBoolean
  if present then do
    let certificate ← takeCertificate
    return some certificate
  else return none

/-- A format tag, and `BadMagic` for any other octets of its length. -/
def takeMagic (magic : Bytes) : BlobReader E Unit := do
  let found ← takeBytes magic.length
  Reader.lift (ensure (found == magic) .badMagic)

/-- The check of a blob's revision. -/
def checkBlobVersion (version : UInt8) : Except (PairingCodecError E) Unit :=
  if version = pairingBlobVersion then .ok ()
  else if firstBlobVersion ≤ version ∧ version ≤ lastEarlierProtocolBlobVersion then
    .error (.earlierProtocol version)
  else .error (.unsupportedVersion version)

/-- The revision of a blob. -/
def takeBlobVersion : BlobReader E Unit := do
  let version ← takeU8
  Reader.lift (checkBlobVersion version)

/-- The engine's record, checked back and a requester's. -/
def takeHeldKeys : BlobReader E (Keys E) := do
  let encoded ← takeLengthPrefixed
  let keys ← Reader.lift ((E.decodePairRecord encoded).mapError .pairRecord)
  Reader.lift (ensure (E.role keys = .requester) .notRequester)
  return .held keys

/-- A pairing id: `Reader::take_array`. -/
def takePairId : BlobReader E (PairId E.pairIdSize) := do
  let raw ← takeBytes E.pairIdSize
  Reader.lift (if h : raw.length = E.pairIdSize then .ok ⟨raw, h⟩ else .error .truncated)

/-- What is left of a revoked pairing. -/
def takeRevokedKeys : BlobReader E (Keys E) := do
  let pairId ← takePairId
  let byPeer ← takeBoolean
  let text ← takeText
  let name ← Reader.lift (okOr .invalidDisplayName (E.parseDisplayName text))
  return .revoked pairId byPeer name

/-- The keys of a record, by their tag. -/
def takeKeys : BlobReader E (Keys E) := do
  let tag ← takeU8
  if tag = keysHeld then takeHeldKeys
  else if tag = keysRevoked then takeRevokedKeys
  else Reader.lift (.error .invalidKeys)

/-- A record of these keys, before its certificates. -/
def recordOf (platform : Text) : Keys E → PairingRecord E
  | .held keys => .new keys platform
  | .revoked pairId byPeer name => .revoked pairId byPeer name platform

/-- `remember_…_certificate`, where a certificate was read. -/
def rememberIf (remember : E.Certificate → Change E) (record : PairingRecord E) :
    Option E.Certificate → PairingRecord E
  | some certificate => (remember certificate).apply record
  | none => record

/-- The platform and the certificates, after the keys. -/
def takeAfterKeys (keys : Keys E) : BlobReader E (PairingRecord E) := do
  let platform ← takeText
  let record := recordOf platform keys
  let authentication ← takeOptionalCertificate
  let record := rememberIf .rememberAuthentication record authentication
  let signature ← takeOptionalCertificate
  let record := rememberIf .rememberSignature record signature
  let root ← takeOptionalCertificate
  let record := rememberIf .rememberRoot record root
  let intermediate ← takeOptionalCertificate
  return rememberIf .rememberIntermediate record intermediate

/-- The fields of a record, in order. -/
def takeRecord : BlobReader E (PairingRecord E) := do
  takeMagic pairingBlobMagic
  takeBlobVersion
  let keys ← takeKeys
  takeAfterKeys keys

/-- `decode_pairing_record`. -/
def decodePairingRecord (blob : Bytes) : Except (PairingCodecError E) (PairingRecord E) :=
  takeRecord.whole .trailingBytes blob

/-- `is_refused_record`. -/
def isRefusedRecord : PairingCodecError E → Bool
  | .earlierProtocol _ => true
  | .pairRecord error => E.isUnsupportedVersion error
  | _ => false

/-- `PairingSet`. -/
structure PairingSet (E : Engine) where
  records : List (PairingRecord E) := []
  refused : Nat := 0

/-- What one stored blob adds to the set. -/
def PairingSet.read (set : PairingSet E) (blob : Bytes) :
    Except (PairingCodecError E) (PairingSet E) :=
  match decodePairingRecord blob with
  | .ok record => .ok { set with records := set.records ++ [record] }
  | .error error =>
    if isRefusedRecord error then .ok { set with refused := set.refused + 1 } else .error error

/-- The loop of `decode_pairing_records`. -/
def takeRecords : Nat → PairingSet E → BlobReader E (PairingSet E)
  | 0, set => return set
  | count + 1, set => do
    let blob ← takeLengthPrefixed
    let set ← Reader.lift (set.read blob)
    takeRecords count set

/-- The revision of a set. -/
def takeSetVersion : BlobReader E Unit := do
  let version ← takeU8
  Reader.lift (ensure (version == pairingSetVersion) (.unsupportedVersion version))

/-- The fields of a set, in order. -/
def takeSet : BlobReader E (PairingSet E) := do
  takeMagic pairingSetMagic
  takeSetVersion
  let count ← takeLength
  takeRecords count {}

/-- `decode_pairing_records`. -/
def decodePairingRecords (blob : Bytes) : Except (PairingCodecError E) (PairingSet E) :=
  if blob.isEmpty then .ok {} else takeSet.whole .trailingBytes blob

/-! ## §4. What the fields take -/

/-- What is relied on outside: the engine's codec, its display names and the certificate
    parser each accept exactly what their counterpart writes. -/
structure Engine.Codec (E : Engine) : Prop where
  pairRecord_iff : ∀ keys encoded,
    E.encodePairRecord keys = .ok encoded ↔ E.decodePairRecord encoded = .ok keys
  displayName_iff : ∀ text name, E.parseDisplayName text = some name ↔ E.displayNameText name = text
  der_iff : ∀ der certificate, E.fromDer der = some certificate ↔ E.asDer certificate = der

theorem toBeBytes_fromBeBytes {raw : Bytes} (h : raw.length = 4) :
    fromBeBytes raw < 2 ^ 32 ∧ toBeBytes (fromBeBytes raw) = raw := by
  match raw, h with
  | [a, b, c, d], _ =>
    have ha := a.toNat_lt
    have hb := b.toNat_lt
    have hc := c.toNat_lt
    have hd := d.toNat_lt
    unfold fromBeBytes toBeBytes
    simp only [List.foldl_cons, List.foldl_nil]
    refine ⟨by omega, ?_⟩
    have hbyte : ∀ {n : Nat} {x : UInt8}, n % 256 = x.toNat → UInt8.ofNat n = x := by
      intro n x hx
      apply UInt8.toNat_inj.mp
      rw [UInt8.toNat_ofNat', ← hx]
    rw [hbyte (x := a) (by omega), hbyte (x := b) (by omega), hbyte (x := c) (by omega),
      hbyte (x := d) (by omega)]

theorem fromBeBytes_toBeBytes {n : Nat} (h : n < 2 ^ 32) : fromBeBytes (toBeBytes n) = n := by
  unfold fromBeBytes toBeBytes
  simp only [List.foldl_cons, List.foldl_nil, UInt8.toNat_ofNat']
  omega

theorem putLength_eq_ok {n : Nat} {items : Bytes} :
    (putLength n : Except (PairingCodecError E) Bytes) = .ok items ↔
      n < 2 ^ 32 ∧ items = toBeBytes n := by
  unfold putLength
  split
  next h =>
    constructor
    · intro heq
      injection heq with heq
      exact ⟨h, heq.symm⟩
    · intro hgiven
      obtain ⟨-, rfl⟩ := hgiven
      rfl
  next h =>
    constructor
    · intro heq
      cases heq
    · intro hgiven
      obtain ⟨hn, -⟩ := hgiven
      exact absurd hn h

theorem putBytes_eq_ok {bytes items : Bytes} :
    (putBytes bytes : Except (PairingCodecError E) Bytes) = .ok items ↔
      bytes.length < 2 ^ 32 ∧ items = toBeBytes bytes.length ++ bytes := by
  unfold putBytes
  simp only [bind_eq_ok, pure_eq_ok, putLength_eq_ok]
  constructor
  · intro hgiven
    obtain ⟨length, ⟨hlt, rfl⟩, rfl⟩ := hgiven
    exact ⟨hlt, rfl⟩
  · intro hgiven
    obtain ⟨hlt, rfl⟩ := hgiven
    exact ⟨_, ⟨hlt, rfl⟩, rfl⟩

theorem reads_length :
    Reads (takeLength : BlobReader E Nat) fun n items => n < 2 ^ 32 ∧ items = toBeBytes n := by
  refine ((reads_take _ 4).bind fun raw => reads_pure (fromBeBytes raw)).congr fun n items => ?_
  constructor
  · intro hgiven
    obtain ⟨raw, front, back, ⟨rfl, hlen⟩, ⟨rfl, rfl⟩, rfl⟩ := hgiven
    obtain ⟨hlt, hbytes⟩ := toBeBytes_fromBeBytes hlen
    exact ⟨hlt, by rw [hbytes, List.append_nil]⟩
  · intro hgiven
    obtain ⟨hlt, rfl⟩ := hgiven
    exact ⟨toBeBytes n, toBeBytes n, [], ⟨rfl, rfl⟩, ⟨(fromBeBytes_toBeBytes hlt).symm, rfl⟩,
      (List.append_nil _).symm⟩

theorem reads_lengthPrefixed : Reads (takeLengthPrefixed : BlobReader E Bytes) fun bytes items =>
    (putBytes bytes : Except (PairingCodecError E) Bytes) = .ok items := by
  refine (reads_length.bind fun length => reads_take _ length).congr fun bytes items => ?_
  rw [putBytes_eq_ok]
  constructor
  · intro hgiven
    obtain ⟨length, front, back, ⟨hlt, rfl⟩, ⟨rfl, rfl⟩, rfl⟩ := hgiven
    exact ⟨hlt, rfl⟩
  · intro hgiven
    obtain ⟨hlt, rfl⟩ := hgiven
    exact ⟨_, _, _, ⟨hlt, rfl⟩, ⟨rfl, rfl⟩, rfl⟩

theorem fromUtf8_iff {bytes : Bytes} {text : Text} : fromUtf8 bytes = some text ↔ utf8Encode text = bytes := by
  constructor
  · exact utf8Encode_of_fromUtf8
  · rintro rfl
    exact fromUtf8_utf8Encode text

/-- A frame whose contents are checked. -/
theorem reads_framed {α : Type} {parse : Bytes → Except (PairingCodecError E) α} {write : α → Bytes}
    (h : ∀ bytes a, parse bytes = .ok a ↔ write a = bytes) :
    Reads (do let bytes ← takeLengthPrefixed; Reader.lift (parse bytes)) fun a items =>
      (putBytes (write a) : Except (PairingCodecError E) Bytes) = .ok items := by
  refine (reads_lengthPrefixed.bind fun bytes => reads_lift).congr fun a items => ?_
  constructor
  · intro hgiven
    obtain ⟨bytes, front, back, hput, ⟨hparse, rfl⟩, rfl⟩ := hgiven
    rw [List.append_nil, (h bytes a).mp hparse]
    exact hput
  · intro hput
    exact ⟨write a, items, [], hput, ⟨(h _ a).mpr rfl, rfl⟩, (List.append_nil _).symm⟩

theorem reads_text : Reads (takeText : BlobReader E Text) fun text items =>
    (putBytes (utf8Encode text) : Except (PairingCodecError E) Bytes) = .ok items :=
  reads_framed fun _ _ => okOr_eq_ok.trans fromUtf8_iff

theorem booleanFromTag_eq_ok {tag : UInt8} {value : Bool} :
    (booleanFromTag tag : Except (PairingCodecError E) Bool) = .ok value ↔ tag = booleanTag value := by
  constructor
  · intro h
    unfold booleanFromTag at h
    repeat' split at h
    all_goals first
      | (injection h with h; subst h; assumption)
      | cases h
  · rintro rfl
    cases value <;> rfl

/-- A checked octet. -/
theorem reads_tag {α : Type} {parse : UInt8 → Except (PairingCodecError E) α} {W : α → UInt8 → Prop}
    (h : ∀ tag a, parse tag = .ok a ↔ W a tag) :
    Reads (do let tag ← takeU8; Reader.lift (parse tag)) fun a items =>
      ∃ tag, W a tag ∧ items = [tag] := by
  refine ((reads_next _).bind fun tag => reads_lift).congr fun a items => ?_
  constructor
  · intro hgiven
    obtain ⟨tag, front, back, rfl, ⟨hok, rfl⟩, rfl⟩ := hgiven
    exact ⟨tag, (h tag a).mp hok, rfl⟩
  · intro hgiven
    obtain ⟨tag, htag, rfl⟩ := hgiven
    exact ⟨tag, [tag], [], rfl, ⟨(h tag a).mpr htag, rfl⟩, rfl⟩

theorem reads_boolean :
    Reads (takeBoolean : BlobReader E Bool) fun value items => items = [booleanTag value] :=
  (reads_tag fun _ _ => booleanFromTag_eq_ok).congr fun _ _ => by simp

theorem reads_magic (magic : Bytes) :
    Reads (takeMagic magic : BlobReader E Unit) fun _ items => items = magic := by
  refine ((reads_take _ magic.length).bind fun found => reads_lift).congr fun u items => ?_
  constructor
  · intro hgiven
    obtain ⟨found, front, back, ⟨rfl, -⟩, ⟨hok, rfl⟩, rfl⟩ := hgiven
    rw [ensure_eq_ok, beq_iff_eq] at hok
    rw [List.append_nil, hok]
  · rintro rfl
    exact ⟨items, items, [], ⟨rfl, rfl⟩, ⟨ensure_eq_ok.mpr (beq_self_eq_true items), rfl⟩,
      (List.append_nil _).symm⟩

theorem checkBlobVersion_eq_ok {version : UInt8} {u : Unit} :
    (checkBlobVersion version : Except (PairingCodecError E) Unit) = .ok u ↔
      version = pairingBlobVersion := by
  unfold checkBlobVersion
  split
  next h => exact ⟨fun _ => h, fun _ => rfl⟩
  next h =>
    refine ⟨fun heq => ?_, fun heq => absurd heq h⟩
    split at heq <;> cases heq

theorem reads_blobVersion :
    Reads (takeBlobVersion : BlobReader E Unit) fun _ items => items = [pairingBlobVersion] :=
  (reads_tag fun _ _ => checkBlobVersion_eq_ok).congr fun _ _ => by simp

theorem putOptionalCertificate_some {certificate : E.Certificate} {items : Bytes} :
    putOptionalCertificate (some certificate) = .ok items ↔
      ∃ framed, (putBytes (E.asDer certificate) : Except (PairingCodecError E) Bytes) = .ok framed ∧
        booleanTrue :: framed = items := by
  unfold putOptionalCertificate
  simp only [bind_eq_ok, pure_eq_ok]

section
variable (hE : E.Codec)
include hE

theorem reads_certificate :
    Reads (takeCertificate : BlobReader E E.Certificate) fun certificate items =>
      (putBytes (E.asDer certificate) : Except (PairingCodecError E) Bytes) = .ok items :=
  reads_framed fun der certificate => okOr_eq_ok.trans (hE.der_iff der certificate)

theorem reads_optionalCertificate :
    Reads (takeOptionalCertificate : BlobReader E (Option E.Certificate)) fun found items =>
      putOptionalCertificate found = .ok items := by
  have hsome : Reads (do let certificate ← takeCertificate; return some certificate :
      BlobReader E (Option E.Certificate)) fun found items =>
        ∃ certificate, found = some certificate ∧
          (putBytes (E.asDer certificate) : Except (PairingCodecError E) Bytes) = .ok items := by
    refine ((reads_certificate hE).bind fun c => reads_pure (some c)).congr fun found items => ?_
    constructor
    · intro hgiven
      obtain ⟨certificate, front, back, hput, ⟨rfl, rfl⟩, rfl⟩ := hgiven
      rw [List.append_nil]
      exact ⟨certificate, rfl, hput⟩
    · intro hgiven
      obtain ⟨certificate, rfl, hput⟩ := hgiven
      exact ⟨certificate, items, [], hput, ⟨rfl, rfl⟩, (List.append_nil _).symm⟩
  have hpresent : ∀ present : Bool, Reads (if present = true then
      (do let certificate ← takeCertificate; return some certificate :
        BlobReader E (Option E.Certificate)) else return none) fun found items =>
      (present = true ∧ ∃ certificate, found = some certificate ∧
          (putBytes (E.asDer certificate) : Except (PairingCodecError E) Bytes) = .ok items) ∨
        (present = false ∧ found = none ∧ items = []) := by
    intro present
    cases present with
    | true => exact hsome.congr fun _ _ => by simp
    | false => exact (reads_pure none).congr fun _ _ => by simp
  refine (reads_boolean.bind hpresent).congr fun found items => ?_
  constructor
  · intro hgiven
    obtain ⟨present, front, back, rfl, hback, rfl⟩ := hgiven
    rcases hback with ⟨rfl, certificate, rfl, hput⟩ | ⟨rfl, rfl, rfl⟩
    · exact putOptionalCertificate_some.mpr ⟨back, hput, rfl⟩
    · rfl
  · intro hput
    cases found with
    | none =>
      injection hput with hput
      exact ⟨false, [booleanFalse], [], rfl, .inr ⟨rfl, rfl, rfl⟩, hput.symm⟩
    | some certificate =>
      obtain ⟨framed, hframed, rfl⟩ := putOptionalCertificate_some.mp hput
      exact ⟨true, [booleanTrue], framed, rfl, .inl ⟨rfl, certificate, rfl, hframed⟩, rfl⟩

end

/-! ## §5. Keys and records -/

/-- The keys, if held, are a requester's. -/
def Keys.IsRequester : Keys E → Prop
  | .held keys => E.role keys = .requester
  | .revoked _ _ _ => True

/-- The octets of keys. -/
def Keys.Written : Keys E → Bytes → Prop
  | .held keys, items => ∃ encoded framed, E.encodePairRecord keys = .ok encoded ∧
      (putBytes encoded : Except (PairingCodecError E) Bytes) = .ok framed ∧ items = keysHeld :: framed
  | .revoked pairId byPeer name, items => ∃ framed,
      (putBytes (utf8Encode (E.displayNameText name)) : Except (PairingCodecError E) Bytes) = .ok framed ∧
        items = keysRevoked :: pairId.bytes ++ [booleanTag byPeer] ++ framed

theorem putKeys_eq_ok {record : PairingRecord E} {items : Bytes} :
    putKeys record = .ok items ↔ record.keys.Written items := by
  obtain ⟨keys, platform, certificates⟩ := record
  cases keys with
  | held keys =>
    unfold putKeys Keys.Written
    simp only [PairingRecord.pairRecord, bind_eq_ok, pure_eq_ok, mapError_eq_ok_iff]
    constructor
    · intro hgiven
      obtain ⟨encoded, hencoded, framed, hframed, rfl⟩ := hgiven
      exact ⟨encoded, framed, hencoded, hframed, rfl⟩
    · intro hgiven
      obtain ⟨encoded, framed, hencoded, hframed, rfl⟩ := hgiven
      exact ⟨encoded, hencoded, framed, hframed, rfl⟩
  | revoked pairId byPeer name =>
    unfold putKeys Keys.Written
    simp only [PairingRecord.pairRecord, PairingRecord.state, PairingRecord.pairId,
      PairingRecord.peerDisplayName, bind_eq_ok, pure_eq_ok]
    have htag : booleanTag (PairingState.revoked byPeer = .revoked true) = booleanTag byPeer := by
      cases byPeer <;> rfl
    rw [htag]
    constructor
    · intro hgiven
      obtain ⟨framed, hframed, rfl⟩ := hgiven
      exact ⟨framed, hframed, rfl⟩
    · intro hgiven
      obtain ⟨framed, hframed, rfl⟩ := hgiven
      exact ⟨framed, hframed, rfl⟩

theorem encodePairingRecord_eq_ok {record : PairingRecord E} {items : Bytes} :
    encodePairingRecord record = .ok items ↔
      ∃ keys platform authentication signature root intermediate, record.keys.Written keys ∧
        putBytes (E := E) (utf8Encode record.peerPlatform) = .ok platform ∧
        putOptionalCertificate record.certificates.authentication = .ok authentication ∧
        putOptionalCertificate record.certificates.signature = .ok signature ∧
        putOptionalCertificate record.certificates.root = .ok root ∧
        putOptionalCertificate record.certificates.intermediate = .ok intermediate ∧
        items = pairingBlobMagic ++ [pairingBlobVersion] ++ keys ++ platform ++ authentication ++
          signature ++ root ++ intermediate := by
  unfold encodePairingRecord
  simp only [bind_eq_ok, pure_eq_ok, putKeys_eq_ok]
  constructor
  · intro hgiven
    obtain ⟨k, hk, p, hp, a, ha, s, hs, r, hr, i, hi, rfl⟩ := hgiven
    exact ⟨k, p, a, s, r, i, hk, hp, ha, hs, hr, hi, rfl⟩
  · intro hgiven
    obtain ⟨k, p, a, s, r, i, hk, hp, ha, hs, hr, hi, rfl⟩ := hgiven
    exact ⟨k, hk, p, hp, a, ha, s, hs, r, hr, i, hi, rfl⟩

/-- The record a reader puts together field by field. -/
theorem remembered_eq (keys : Keys E) (platform : Text) (a s r i : Option E.Certificate) :
    rememberIf .rememberIntermediate (rememberIf .rememberRoot (rememberIf .rememberSignature
      (rememberIf .rememberAuthentication (recordOf platform keys) a) s) r) i =
        ⟨keys, platform, ⟨a, s, r, i⟩⟩ := by
  cases keys <;> cases a <;> cases s <;> cases r <;> cases i <;> rfl

theorem reads_pairId_bytes : Reads (takePairId : BlobReader E (PairId E.pairIdSize))
    fun pairId items => items = pairId.bytes := by
  refine ((reads_take _ E.pairIdSize).bind fun raw => reads_lift).congr fun pairId items => ?_
  constructor
  · intro hgiven
    obtain ⟨raw, front, back, ⟨rfl, hlen⟩, ⟨hok, rfl⟩, rfl⟩ := hgiven
    rw [dif_pos hlen] at hok
    injection hok with hok
    rw [List.append_nil, ← hok]
  · rintro rfl
    refine ⟨pairId.bytes, pairId.bytes, [], ⟨rfl, pairId.length_eq⟩, ⟨?_, rfl⟩,
      (List.append_nil _).symm⟩
    rw [dif_pos pairId.length_eq]

section
variable (hE : E.Codec)
include hE

theorem reads_heldKeys : Reads (takeHeldKeys : BlobReader E (Keys E)) fun keys items =>
    ∃ k encoded, keys = .held k ∧ E.role k = .requester ∧ E.encodePairRecord k = .ok encoded ∧
      (putBytes encoded : Except (PairingCodecError E) Bytes) = .ok items := by
  refine (reads_lengthPrefixed.bind fun encoded => reads_lift.bind fun k =>
    reads_lift.bind fun _ => reads_pure (Keys.held k)).congr fun keys items => ?_
  constructor
  · intro hgiven
    obtain ⟨encoded, front, back, hput, ⟨k, front', back', ⟨hdecode, rfl⟩, ⟨u, front'', back'',
      ⟨hrole, rfl⟩, ⟨rfl, rfl⟩, rfl⟩, rfl⟩, rfl⟩ := hgiven
    rw [mapError_eq_ok_iff] at hdecode
    rw [ensure_eq_ok, decide_eq_true_eq] at hrole
    refine ⟨k, encoded, rfl, hrole, (hE.pairRecord_iff k encoded).mpr hdecode, ?_⟩
    rw [List.append_nil, List.append_nil, List.append_nil]
    exact hput
  · intro hgiven
    obtain ⟨k, encoded, rfl, hrole, hencode, hput⟩ := hgiven
    have hdecode := (hE.pairRecord_iff k encoded).mp hencode
    exact ⟨encoded, items, [], hput, ⟨k, [], [], ⟨mapError_eq_ok_iff.mpr hdecode, rfl⟩, ⟨(), [], [],
      ⟨ensure_eq_ok.mpr (decide_eq_true hrole), rfl⟩, ⟨rfl, rfl⟩, rfl⟩, rfl⟩, (List.append_nil _).symm⟩

theorem reads_revokedKeys : Reads (takeRevokedKeys : BlobReader E (Keys E)) fun keys items =>
    ∃ pairId byPeer name framed, keys = .revoked pairId byPeer name ∧
      (putBytes (utf8Encode (E.displayNameText name)) : Except (PairingCodecError E) Bytes) = .ok framed ∧
      items = pairId.bytes ++ [booleanTag byPeer] ++ framed := by
  refine (reads_pairId_bytes.bind fun pairId => reads_boolean.bind fun byPeer =>
    reads_text.bind fun text => reads_lift.bind fun name =>
      reads_pure (Keys.revoked pairId byPeer name)).congr fun keys items => ?_
  constructor
  · intro hgiven
    obtain ⟨pairId, _, _, rfl, ⟨byPeer, _, _, rfl, ⟨text, framed, _, hput, ⟨name, _, _, ⟨hname, rfl⟩,
      ⟨rfl, rfl⟩, rfl⟩, rfl⟩, rfl⟩, rfl⟩ := hgiven
    rw [okOr_eq_ok, hE.displayName_iff] at hname
    refine ⟨pairId, byPeer, name, framed, rfl, ?_, by simp⟩
    rw [hname]
    exact hput
  · intro hgiven
    obtain ⟨pairId, byPeer, name, framed, rfl, hput, rfl⟩ := hgiven
    have hname := (hE.displayName_iff _ name).mpr rfl
    exact ⟨pairId, _, _, rfl, ⟨byPeer, _, _, rfl, ⟨_, framed, [], hput, ⟨name, [], [],
      ⟨okOr_eq_ok.mpr hname, rfl⟩, ⟨rfl, rfl⟩, rfl⟩, rfl⟩, rfl⟩, by simp⟩

theorem reads_keys : Reads (takeKeys : BlobReader E (Keys E)) fun keys items =>
    keys.Written items ∧ keys.IsRequester := by
  have htag : ∀ tag : UInt8, Reads (if tag = keysHeld then takeHeldKeys
      else if tag = keysRevoked then takeRevokedKeys
      else Reader.lift (.error .invalidKeys) : BlobReader E (Keys E)) fun keys items =>
      keys.Written (tag :: items) ∧ keys.IsRequester := by
    intro tag
    by_cases hheld : tag = keysHeld
    · subst hheld
      rw [if_pos rfl]
      refine (reads_heldKeys hE).congr fun keys items => ?_
      constructor
      · intro hgiven
        obtain ⟨k, encoded, rfl, hrole, hencode, hput⟩ := hgiven
        exact ⟨⟨encoded, items, hencode, hput, rfl⟩, hrole⟩
      · intro hgiven
        obtain ⟨hwritten, hrole⟩ := hgiven
        cases keys with
        | held k =>
          obtain ⟨encoded, framed, hencode, hput, heq⟩ := hwritten
          rw [(List.cons.inj heq).2]
          exact ⟨k, encoded, rfl, hrole, hencode, hput⟩
        | revoked pairId byPeer name =>
          obtain ⟨framed, _, heq⟩ := hwritten
          exact absurd (List.cons.inj heq).1 (by decide)
    · rw [if_neg hheld]
      by_cases hrevoked : tag = keysRevoked
      · subst hrevoked
        rw [if_pos rfl]
        refine (reads_revokedKeys hE).congr fun keys items => ?_
        constructor
        · intro hgiven
          obtain ⟨pairId, byPeer, name, framed, rfl, hput, rfl⟩ := hgiven
          exact ⟨⟨framed, hput, rfl⟩, trivial⟩
        · intro hgiven
          obtain ⟨hwritten, _⟩ := hgiven
          cases keys with
          | held k =>
            obtain ⟨_, framed, _, _, heq⟩ := hwritten
            exact absurd (List.cons.inj heq).1 hheld
          | revoked pairId byPeer name =>
            obtain ⟨framed, hput, heq⟩ := hwritten
            exact ⟨pairId, byPeer, name, framed, rfl, hput, (List.cons.inj heq).2⟩
      · -- no other tag is written
        rw [if_neg hrevoked]
        refine reads_lift.congr fun keys items => ?_
        constructor
        · intro hgiven
          obtain ⟨herror, _⟩ := hgiven
          cases herror
        · intro hgiven
          obtain ⟨hwritten, _⟩ := hgiven
          cases keys with
          | held k =>
            obtain ⟨_, framed, _, _, heq⟩ := hwritten
            exact absurd (List.cons.inj heq).1 hheld
          | revoked pairId byPeer name =>
            obtain ⟨framed, _, heq⟩ := hwritten
            exact absurd (List.cons.inj heq).1 hrevoked
  refine ((reads_next _).bind htag).congr fun keys items => ?_
  constructor
  · intro hgiven
    obtain ⟨tag, front, back, rfl, hback, rfl⟩ := hgiven
    exact hback
  · intro hgiven
    obtain ⟨hwritten, hrole⟩ := hgiven
    have hne : items ≠ [] := by
      rintro rfl
      cases keys with
      | held k =>
        obtain ⟨_, _, _, _, heq⟩ := hwritten
        cases heq
      | revoked pairId byPeer name =>
        obtain ⟨_, _, heq⟩ := hwritten
        cases heq
    obtain ⟨tag, back, rfl⟩ := List.exists_cons_of_ne_nil hne
    exact ⟨tag, [tag], back, rfl, ⟨hwritten, hrole⟩, rfl⟩

/-- **What the record reader takes.** -/
theorem reads_record : Reads (takeRecord : BlobReader E (PairingRecord E)) fun record items =>
    encodePairingRecord record = .ok items ∧ record.keys.IsRequester := by
  refine ((reads_magic _).bind fun _ => reads_blobVersion.bind fun _ => (reads_keys hE).bind fun _ =>
    reads_text.bind fun _ => (reads_optionalCertificate hE).bind fun _ =>
    (reads_optionalCertificate hE).bind fun _ => (reads_optionalCertificate hE).bind fun _ =>
    (reads_optionalCertificate hE).bind fun _ => reads_pure _).congr fun record items => ?_
  rw [encodePairingRecord_eq_ok]
  constructor
  · intro hgiven
    obtain ⟨_, _, _, rfl, ⟨_, _, _, rfl, ⟨keys, _, _, ⟨hkeys, hrole⟩, ⟨platform, _, _, hplatform,
      ⟨a, _, _, ha, ⟨s, _, _, hs, ⟨r, _, _, hr, ⟨i, _, _, hi, ⟨rfl, rfl⟩, rfl⟩, rfl⟩, rfl⟩, rfl⟩,
      rfl⟩, rfl⟩, rfl⟩, rfl⟩ := hgiven
    rw [remembered_eq]
    exact ⟨⟨_, _, _, _, _, _, hkeys, hplatform, ha, hs, hr, hi, by simp⟩, hrole⟩
  · intro hgiven
    obtain ⟨⟨_, _, _, _, _, _, hkeys, hplatform, ha, hs, hr, hi, rfl⟩, hrole⟩ := hgiven
    refine ⟨(), _, _, rfl, ⟨(), _, _, rfl, ⟨record.keys, _, _, ⟨hkeys, hrole⟩, ⟨record.peerPlatform, _,
      _, hplatform, ⟨_, _, _, ha, ⟨_, _, _, hs, ⟨_, _, _, hr, ⟨_, _, [], hi, ⟨?_, rfl⟩, rfl⟩, rfl⟩,
      rfl⟩, rfl⟩, rfl⟩, rfl⟩, rfl⟩, by simp⟩
    rw [remembered_eq]

/-- **Accepted is exactly encoded, and a requester's.** -/
theorem decodePairingRecord_iff {blob : Bytes} {record : PairingRecord E} :
    decodePairingRecord blob = .ok record ↔
      encodePairingRecord record = .ok blob ∧ record.keys.IsRequester :=
  (reads_record hE).complete _

end

end RefineId.Pairing
