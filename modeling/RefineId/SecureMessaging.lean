/-
  RefineId.SecureMessaging — the protected channel between host and card.
  ════════════════════════════════════════════════════════════════════════════

  `crates/refineid-lib-core/src/secure_messaging.rs`: `SmTransport` wraps each command in
  encrypted and authenticated data objects, and unwraps each protected answer.  Both ends
  keep a send sequence counter, bumped before each message, which enters every
  initialisation vector and every MAC.

  AES is a parameter: the block cipher, its CBC mode on whole blocks and CMAC come from
  crates outside the repository.

  Main results:
    • `wrap_cases`            : what `wrap` can do.
    • `wrap_atomic_iff`       : a refused command leaves the counter alone exactly when it
                                is not one that turns out too long after wrapping.
    • `transmitOutcome_authenticated` : a success or a body is authenticated exactly when
                                the card's answer is not a bare `9000`.
-/
import RefineId.Lib.Padding
import RefineId.Lib.Counter
import RefineId.Lib.Outcome
import RefineId.Transport

namespace RefineId

namespace SecureMessaging

open Ber Lib

/-! ## §1. Keys, counter and ciphers -/

/-- `[u8; 16]`: an AES block. -/
structure Block where
  bytes : Bytes
  length_bytes : bytes.length = 16
  deriving Repr, DecidableEq

/-- `Aes256Key`: 32 octets.  The keys of a session are derived, and derivation excludes no
    value. -/
structure Aes256Key where
  bytes : Bytes
  length_bytes : bytes.length = 32
  deriving DecidableEq

/-- `Ssc`: the send sequence counter, big-endian. -/
structure Ssc where
  block : Block
  deriving Repr, DecidableEq

/-- `Ssc::INITIAL`. -/
def Ssc.initial : Ssc := ⟨⟨List.replicate 16 0, rfl⟩⟩

/-- `Ssc::increment`: one up from the last octet, with rollover. -/
def Ssc.increment (ssc : Ssc) : Ssc :=
  ⟨⟨(Counter.bump ssc.block.bytes.reverse).reverse, by
    rw [List.length_reverse, Counter.length_bump, List.length_reverse, ssc.block.length_bytes]⟩⟩

/-- **What the `aes`, `cbc` and `cmac` crates compute.**  CBC works in place on whole
    blocks, and its decryption inverts its encryption. -/
structure Aes where
  encryptBlock : Aes256Key → Block → Block
  cbcEncrypt : Aes256Key → Block → Bytes → Bytes
  cbcDecrypt : Aes256Key → Block → Bytes → Bytes
  cmac : Aes256Key → Bytes → Block
  length_cbcEncrypt : ∀ key iv plain, plain.length % 16 = 0 →
    (cbcEncrypt key iv plain).length = plain.length
  length_cbcDecrypt : ∀ key iv cipher, cipher.length % 16 = 0 →
    (cbcDecrypt key iv cipher).length = cipher.length
  cbcDecrypt_cbcEncrypt : ∀ key iv plain, plain.length % 16 = 0 →
    cbcDecrypt key iv (cbcEncrypt key iv plain) = plain

/-- `SmError`. -/
inductive SmError (E : Type) where
  | transport (e : E)
  | malformed (what : String)
  | macMismatch
  | commandTooLong
  deriving Repr, DecidableEq

/-- The session fields of `SmTransport`. -/
structure SmSession where
  kEnc : Aes256Key
  kMac : Aes256Key
  ssc : Ssc
  deriving DecidableEq

/-- `SmTransport::increment_ssc`. -/
def SmSession.incrementSsc (s : SmSession) : SmSession := { s with ssc := s.ssc.increment }

/-- Values of the ciphers: the counters under a key, a block and its encryption under a key and
    an initialisation vector, and the codes of messages. -/
structure AesValues where
  counters : List ((Bytes × Bytes) × Block)
  blocks : List ((Bytes × Bytes) × Block × Block)
  codes : List ((Bytes × Bytes) × Block)

/-- CBC at the values: the two blocks are exchanged. -/
def AesValues.cbc (values : AesValues) (key : Aes256Key) (iv : Block) : Equiv.Perm Bytes :=
  match values.blocks.lookup (key.bytes, iv.bytes) with
  | none => Equiv.refl Bytes
  | some (plain, cipher) => Equiv.swap plain.bytes cipher.bytes

theorem AesValues.length_cbc (values : AesValues) (key : Aes256Key) (iv : Block) (data : Bytes) :
    (values.cbc key iv data).length = data.length := by
  unfold AesValues.cbc
  split
  · rfl
  next plain cipher _ =>
    rw [Equiv.swap_apply_def]
    split
    next h => rw [h, plain.length_bytes, cipher.length_bytes]
    · split
      next h => rw [h, plain.length_bytes, cipher.length_bytes]
      · rfl

theorem AesValues.symm_cbc (values : AesValues) (key : Aes256Key) (iv : Block) :
    (values.cbc key iv).symm = values.cbc key iv := by
  unfold AesValues.cbc
  split
  · rfl
  · exact Equiv.symm_swap _ _

/-- The ciphers with these values; elsewhere they leave blocks as they are and every code is
    zero. -/
def Aes.ofValues (values : AesValues) : Aes where
  encryptBlock key block := (values.counters.lookup (key.bytes, block.bytes)).getD block
  cbcEncrypt key iv := values.cbc key iv
  cbcDecrypt key iv := (values.cbc key iv).symm
  cmac key message := (values.codes.lookup (key.bytes, message)).getD Ssc.initial.block
  length_cbcEncrypt key iv plain _ := values.length_cbc key iv plain
  length_cbcDecrypt key iv cipher _ := by
    rw [values.symm_cbc]
    exact values.length_cbc key iv cipher
  cbcDecrypt_cbcEncrypt key iv plain _ := (values.cbc key iv).symm_apply_apply plain

/-- The keys of the repository's tests. -/
def sampleKEnc : Aes256Key := ⟨List.replicate 32 0x42, List.length_replicate⟩

def sampleKMac : Aes256Key := ⟨List.replicate 32 0x77, List.length_replicate⟩

/-- A session with fresh keys. -/
def sampleSession : SmSession where
  kEnc := sampleKEnc
  kMac := sampleKMac
  ssc := .initial

/-- A small counter as a block. -/
def counterBlock (count : UInt8) : Bytes := List.replicate 15 0 ++ [count]

/-- The data `43 31`, padded. -/
def samplePlain : Bytes :=
  [0x43, 0x31, 0x80, 0x00, 0x00, 0x00, 0x00, 0x00, 0x00, 0x00, 0x00, 0x00, 0x00, 0x00, 0x00, 0x00]

/-- The counters 1 to 4 under the encryption key. -/
def sampleIv1 : Block :=
  ⟨[0x1A, 0x61, 0x7B, 0xEF, 0xA5, 0x77, 0xE0, 0xB7, 0x8C, 0x66, 0xDB, 0x5B, 0x28, 0x9E, 0x61,
    0x13], rfl⟩

def sampleIv2 : Block :=
  ⟨[0xF4, 0xB2, 0xFF, 0xF9, 0x5C, 0x8C, 0x85, 0xE7, 0x99, 0x4F, 0x4B, 0x0F, 0x31, 0x8B, 0xB5,
    0x51], rfl⟩

def sampleIv3 : Block :=
  ⟨[0xD1, 0xFE, 0xE6, 0x72, 0x38, 0x2A, 0xAB, 0xBB, 0xCC, 0x38, 0xEE, 0xFD, 0x9E, 0x0E, 0x1B,
    0x35], rfl⟩

def sampleIv4 : Block :=
  ⟨[0xBF, 0x55, 0x4B, 0x7B, 0xC9, 0x7B, 0x34, 0x48, 0xF0, 0x8C, 0xD9, 0x01, 0x07, 0x8D, 0xA9,
    0xFC], rfl⟩

/-- The padded data as it is encrypted in the messages 1, 2 and 4. -/
def sampleCipher : Bytes :=
  [0x2A, 0xD2, 0x5A, 0x53, 0xB5, 0xCF, 0x1D, 0xE7, 0x14, 0x83, 0x68, 0x44, 0x25, 0x9B, 0x8F, 0x37]

def sampleCipher2 : Bytes :=
  [0x1D, 0x3C, 0xEB, 0x60, 0xA3, 0x8A, 0x34, 0x41, 0xF1, 0x6F, 0xBF, 0x23, 0x9B, 0x02, 0x72, 0x2C]

def sampleCipher4 : Bytes :=
  [0x16, 0x32, 0x03, 0xAD, 0xC6, 0x63, 0x7D, 0xF6, 0x35, 0x83, 0xED, 0xE8, 0x97, 0x38, 0x55, 0x15]

/-- What the MAC of an answer covers: the data, and the status `9000`. -/
def sampleAnswer (count : UInt8) (cipher : Bytes) : Bytes :=
  counterBlock count ++ [0x87, 0x11, 0x01] ++ cipher ++ [0x99, 0x02, 0x90, 0x00] ++
    0x80 :: List.replicate 8 0

/-- AES-256 with these keys, at the messages of two exchanges from counter 0 on: SELECT with the
    data `43 31` and READ BINARY, each answered with that body and `9000`; and at the answer to
    no command, with counter 1. -/
def sampleAes : Aes := .ofValues {
  counters := [
    ((sampleKEnc.bytes, counterBlock 1), sampleIv1),
    ((sampleKEnc.bytes, counterBlock 2), sampleIv2),
    ((sampleKEnc.bytes, counterBlock 3), sampleIv3),
    ((sampleKEnc.bytes, counterBlock 4), sampleIv4)]
  blocks := [
    ((sampleKEnc.bytes, sampleIv1.bytes), ⟨samplePlain, rfl⟩, ⟨sampleCipher, rfl⟩),
    ((sampleKEnc.bytes, sampleIv2.bytes), ⟨samplePlain, rfl⟩, ⟨sampleCipher2, rfl⟩),
    ((sampleKEnc.bytes, sampleIv4.bytes), ⟨samplePlain, rfl⟩, ⟨sampleCipher4, rfl⟩)]
  codes := [
    ((sampleKMac.bytes, counterBlock 1 ++ [0x0C, 0xA4, 0x02, 0x0C] ++ 0x80 :: List.replicate 11 0 ++
        [0x87, 0x11, 0x01] ++ sampleCipher ++ 0x80 :: List.replicate 12 0),
      ⟨[0xCA, 0xF5, 0x8F, 0x74, 0x6E, 0x1E, 0x24, 0x74, 0x36, 0x05, 0x5C, 0x29, 0xC4, 0x5C, 0x70,
        0x0A], rfl⟩),
    ((sampleKMac.bytes, sampleAnswer 2 sampleCipher2),
      ⟨[0x97, 0xED, 0xE2, 0x3E, 0x08, 0xBF, 0x1D, 0x4B, 0xA0, 0x47, 0x94, 0xA4, 0xDC, 0x55, 0xCA,
        0x02], rfl⟩),
    ((sampleKMac.bytes, counterBlock 3 ++ [0x0C, 0xB0, 0x00, 0x00] ++ 0x80 :: List.replicate 11 0 ++
        [0x97, 0x01, 0x02] ++ 0x80 :: List.replicate 12 0),
      ⟨[0xD6, 0xE1, 0x0C, 0xEE, 0x4C, 0xF1, 0x5F, 0xF8, 0x36, 0x71, 0x24, 0x48, 0x0D, 0x83, 0x17,
        0x01], rfl⟩),
    ((sampleKMac.bytes, sampleAnswer 4 sampleCipher4),
      ⟨[0x65, 0xD1, 0x34, 0x97, 0x5A, 0x0D, 0x06, 0xD3, 0xE4, 0x7E, 0x92, 0x47, 0x05, 0x0A, 0xA7,
        0xCA], rfl⟩),
    ((sampleKMac.bytes, sampleAnswer 1 sampleCipher),
      ⟨[0xAF, 0xF0, 0xCB, 0x7D, 0x1B, 0x71, 0xCA, 0xF1, 0xE7, 0xB1, 0xBA, 0x90, 0x3B, 0x75, 0xB5,
        0x36], rfl⟩)] }

/-- SELECT of the file `43 31`. -/
def selectCommand : Bytes := [0x00, 0xA4, 0x02, 0x0C, 0x02, 0x43, 0x31]

/-! ## §2. Helpers -/

/-- `SmHelpers::iso7816_4_pad`. -/
def iso78164Pad (data : Bytes) : Bytes := pad 0x80 0x00 16 data

/-- `SmHelpers::iso7816_4_unpad`. -/
def iso78164Unpad (data : Bytes) : Bytes := unpad 0x80 0x00 data

/-- `SmHelpers::decode_short_apdu`: the data field and `Le`. -/
def decodeShortApdu (apdu : Bytes) : Option (Bytes × Option UInt8) :=
  if apdu.length = 4 then some ([], none)
  else if apdu.length = 5 then (apdu[4]?).map fun le => ([], some le)
  else do
    let lc ← apdu[4]?
    let bodyEnd := 5 + lc.toNat
    if apdu.length < bodyEnd then none
    else if apdu.length = bodyEnd then some ((apdu.drop 5).take lc.toNat, none)
    else if apdu.length = bodyEnd + 1 then
      (apdu[bodyEnd]?).map fun le => ((apdu.drop 5).take lc.toNat, some le)
    else none

/-- `ber::tlv` at the sizes used here.  It panics above `u32::MAX` octets, which neither a
    command's objects nor objects read from an answer reach (`tlv_dataObject`). -/
def dataObject (tag : UInt8) (value : Bytes) : Bytes := (tlv tag value).getD []

/-- An object that may be left out. -/
def optionalObject (tag : UInt8) : Option Bytes → Bytes
  | none => []
  | some value => dataObject tag value

section
variable (aes : Aes)

/-- `aes256_cbc_encrypt_no_padding`; `none` is `UnalignedInput`. -/
def aes256CbcEncryptNoPadding (key : Aes256Key) (iv : Block) (plain : Bytes) : Option Bytes :=
  if plain.length % 16 = 0 then some (aes.cbcEncrypt key iv plain) else none

/-- `aes256_cbc_decrypt_no_padding`; `none` is `UnalignedInput`. -/
def aes256CbcDecryptNoPadding (key : Aes256Key) (iv : Block) (cipher : Bytes) : Option Bytes :=
  if cipher.length % 16 = 0 then some (aes.cbcDecrypt key iv cipher) else none

/-- `aes256_cmac_truncated`. -/
def aes256CmacTruncated (key : Aes256Key) (message : Bytes) : Bytes :=
  (aes.cmac key message).bytes.take 8

/-- The initialisation vector of a message: the counter under the encryption key. -/
def SmSession.iv (s : SmSession) : Block := aes.encryptBlock s.kEnc s.ssc.block

/-! ## §3. Wrapping a command -/

section
variable {E : Type}

/-- DO87 of a command: none for an empty data field. -/
def commandDo87 (s : SmSession) (data : Bytes) : Except (SmError E) Bytes :=
  if data = [] then .ok []
  else match aes256CbcEncryptNoPadding aes s.kEnc (s.iv aes) (iso78164Pad data) with
    | none => .error (.malformed "SM wrap: padded plaintext not block-aligned")
    | some cipher => .ok (dataObject 0x87 (0x01 :: cipher))

/-- DO97 of a command: the protected `Le`. -/
def commandDo97 (le : Option UInt8) : Bytes := optionalObject 0x97 (le.map fun le => [le])

/-- The octets a command's MAC covers. -/
def commandMacInput (s : SmSession) (header do87 do97 : Bytes) : Bytes :=
  iso78164Pad (s.ssc.block.bytes ++ iso78164Pad header ++ do87 ++ do97)

/-- The data field of a protected command. -/
def commandBody (s : SmSession) (header do87 do97 : Bytes) : Bytes :=
  do87 ++ do97 ++
    dataObject 0x8E (aes256CmacTruncated aes s.kMac (commandMacInput s header do87 do97))

/-- The part of `SmTransport::wrap` after the counter's bump. -/
def protectCommand (s : SmSession) (header data : Bytes) (le : Option UInt8) :
    Except (SmError E) Bytes := do
  let do87 ← commandDo87 aes s data
  let body := commandBody aes s header do87 (commandDo97 le)
  ensure (body.length ≤ 255) .commandTooLong
  return header ++ UInt8.ofNat body.length :: body ++ [0x00]

/-- `SmTransport::wrap`.  The two shape checks come before the counter is bumped, the
    length check after it. -/
def wrap (s : SmSession) (plain : Bytes) : SmSession × Except (SmError E) Bytes :=
  match plain with
  | cla :: ins :: p1 :: p2 :: _ =>
    match decodeShortApdu plain with
    | none => (s, .error (.malformed "APDU does not match a short-form case"))
    | some (data, le) =>
      let s' := s.incrementSsc
      (s', protectCommand aes s' [cla ||| 0x0C, ins, p1, p2] data le)
  | _ => (s, .error (.malformed "APDU shorter than 4-byte header"))

/-! ## §4. Unwrapping an answer -/

/-- The objects `SmTransport::unwrap` keeps while it walks the answer. -/
structure Objects where
  do87 : Option Bytes
  do99 : Option Bytes
  do8E : Option Bytes
  deriving Repr, DecidableEq

/-- One turn of the walk: a later object replaces an earlier one of its tag. -/
def Objects.take (o : Objects) (t : BerTlvAny) : Objects :=
  if t.tag = 0x87 then { o with do87 := some t.value }
  else if t.tag = 0x99 then { o with do99 := some t.value }
  else if t.tag = 0x8E then { o with do8E := some t.value }
  else o

/-- The walk over the answer's objects. -/
def collectObjects (response : Bytes) : Except (SmError E) Objects := do
  let objects ← collect (fun _ => .malformed "BER parse failed") (children response)
  return objects.foldl Objects.take ⟨none, none, none⟩

/-- The octets an answer's MAC covers, the objects encoded anew. -/
def responseMacInput (s : SmSession) (do87 : Option Bytes) (do99 : Bytes) : Bytes :=
  iso78164Pad (s.ssc.block.bytes ++ optionalObject 0x87 do87 ++ dataObject 0x99 do99)

/-- The body: DO87 decrypted and unpadded, or nothing.  The error is the text of
    `SmError::Malformed`. -/
def decryptBody (s : SmSession) : Option Bytes → Except String Bytes
  | none => .ok []
  | some [] => .error "DO87 empty"
  | some (indicator :: cipher) =>
    if indicator ≠ 0x01 then .error "DO87 missing 0x01 indicator"
    else if cipher.length % 16 ≠ 0 then .error "DO87 cipher not whole blocks"
    else match aes256CbcDecryptNoPadding aes s.kEnc (s.iv aes) cipher with
      | none => .error "DO87 cipher not whole blocks"
      | some plain => .ok (iso78164Unpad plain)

/-- The two status octets of DO99. -/
def statusOctets : Bytes → Except (SmError E) (UInt8 × UInt8)
  | [sw1, sw2] => .ok (sw1, sw2)
  | _ => .error (.malformed "DO99 not 2 bytes")

/-- `SmTransport::unwrap` after the walk: the shapes, the MAC, the body. -/
def openObjects (s : SmSession) (o : Objects) : Except (SmError E) (Bytes × UInt8 × UInt8) := do
  let do99 ← okOr (.malformed "no DO99") o.do99
  let do8E ← okOr (.malformed "no DO8E") o.do8E
  let sw ← statusOctets do99
  ensure (do8E.length = 8) (.malformed "DO8E not 8 bytes")
  ensure (aes256CmacTruncated aes s.kMac (responseMacInput s o.do87 do99) = do8E) .macMismatch
  let body ← (decryptBody aes s o.do87).mapError .malformed
  return (body, sw)

/-- `SmTransport::unwrap`: the body and the two status octets. -/
def unwrap (s : SmSession) (response : Bytes) :
    SmSession × Except (SmError E) (Bytes × UInt8 × UInt8) :=
  let s' := s.incrementSsc
  (s', collectObjects response >>= openObjects aes s')

/-! ## §5. One exchange -/

/-- `SmTransport::transmit_outcome` over an inner transport.  Outcomes other than a
    response go through, and so does a response without a body. -/
def transmitOutcome (s : SmSession) (apdu : CommandApdu)
    (inner : CommandApdu → Except E TransportOutcome) :
    SmSession × Except (SmError E) TransportOutcome :=
  match wrap aes s apdu.bytes with
  | (s, .error e) => (s, .error e)
  | (s, .ok wrapped) =>
    match inner (.new wrapped) with
    | .error e => (s, .error (.transport e))
    | .ok (.response raw) =>
      if raw.body = [] then (s, .ok (.response raw))
      else
        match unwrap aes s raw.body with
        | (s, .error e) => (s, .error e)
        | (s, .ok (body, sw1, sw2)) => (s, .ok (.response ⟨body, sw1, sw2⟩))
    | .ok other => (s, .ok other)

end

end

/-! ## §6. Sizes -/

theorem Ssc.increment_ne (ssc : Ssc) : ssc.increment ≠ ssc := by
  intro h
  have hbytes : (Counter.bump ssc.block.bytes.reverse).reverse = ssc.block.bytes :=
    congrArg (fun x => x.block.bytes) h
  have hbump : Counter.bump ssc.block.bytes.reverse = ssc.block.bytes.reverse := by
    rw [← List.reverse_reverse (Counter.bump _), hbytes]
  refine Counter.bump_ne ?_ hbump
  intro hnil
  have hlen : ssc.block.bytes.length = 16 := ssc.block.length_bytes
  rw [List.reverse_eq_nil_iff.mp hnil] at hlen
  exact absurd hlen (by decide)

theorem length_iso78164Pad (data : Bytes) :
    (iso78164Pad data).length = (data.length / 16 + 1) * 16 :=
  length_pad 0x80 0x00 (by decide) data

theorem iso78164Unpad_pad (data : Bytes) : iso78164Unpad (iso78164Pad data) = data :=
  unpad_pad (by decide) 16 data

theorem tlv_dataObject {tag : UInt8} {value : Bytes} (h : value.length < 2 ^ 32) :
    tlv tag value = some (dataObject tag value) := by
  obtain ⟨len, hlen⟩ := Option.isSome_iff_exists.mp (pushLength_isSome h)
  simp [dataObject, tlv, hlen]

theorem length_dataObject_short {tag : UInt8} {value : Bytes} (h : value.length < 0x80) :
    (dataObject tag value).length = value.length + 2 := by
  simp [dataObject, tlv, pushLength, h]

theorem length_dataObject_medium {tag : UInt8} {value : Bytes} (h1 : 0x80 ≤ value.length)
    (h2 : value.length ≤ 0xFF) : (dataObject tag value).length = value.length + 3 := by
  simp [dataObject, tlv, pushLength, h2, Nat.not_lt.mpr h1]

theorem length_dataObject_long {tag : UInt8} {value : Bytes} (h1 : 0xFF < value.length)
    (h2 : value.length ≤ 0xFFFF) : (dataObject tag value).length = value.length + 4 := by
  have h3 : ¬ value.length < 0x80 := by omega
  simp [dataObject, tlv, pushLength, h2, h3, Nat.not_le.mpr h1]

section
variable (aes : Aes) {E : Type}

theorem length_cmacTruncated (key : Aes256Key) (message : Bytes) :
    (aes256CmacTruncated aes key message).length = 8 := by
  rw [aes256CmacTruncated, List.length_take, (aes.cmac key message).length_bytes]
  rfl

theorem length_do8E (key : Aes256Key) (message : Bytes) :
    (dataObject 0x8E (aes256CmacTruncated aes key message)).length = 10 := by
  rw [length_dataObject_short, length_cmacTruncated]
  rw [length_cmacTruncated]
  decide

theorem length_commandDo97 (le : Option UInt8) :
    (commandDo97 le).length = if le.isSome then 3 else 0 := by
  cases le <;> rfl

/-- The encrypted form of a data field that is there. -/
theorem commandDo87_of_ne_nil (s : SmSession) {data : Bytes} (h : data ≠ []) :
    (commandDo87 aes s data : Except (SmError E) Bytes)
      = .ok (dataObject 0x87 (0x01 :: aes.cbcEncrypt s.kEnc (s.iv aes) (iso78164Pad data))) := by
  have haligned : (iso78164Pad data).length % 16 = 0 := by
    rw [length_iso78164Pad, Nat.mul_mod_left]
  simp [commandDo87, h, aes256CbcEncryptNoPadding, haligned]

/-- The encryption of a command's data never fails. -/
theorem commandDo87_ok (s : SmSession) (data : Bytes) :
    ∃ do87, (commandDo87 aes s data : Except (SmError E) Bytes) = .ok do87 := by
  by_cases h : data = []
  · exact ⟨[], by simp [commandDo87, h]⟩
  · exact ⟨_, commandDo87_of_ne_nil aes s h⟩

/-- DO87 fits a short command, alone and beside DO97, up to these lengths of the data. -/
theorem length_commandDo87 (s : SmSession) {data do87 : Bytes} (hdata : data.length ≤ 255)
    (h : (commandDo87 aes s data : Except (SmError E) Bytes) = .ok do87) :
    (do87.length ≤ 245 ↔ data.length < 240) ∧ (do87.length ≤ 242 ↔ data.length < 224) := by
  by_cases hnil : data = []
  · subst hnil
    have hdo : do87 = [] := by
      simp only [commandDo87, if_pos] at h
      injection h with h
      exact h.symm
    subst hdo
    decide
  · rw [commandDo87_of_ne_nil aes s hnil] at h
    injection h with h
    have haligned : (iso78164Pad data).length % 16 = 0 := by
      rw [length_iso78164Pad, Nat.mul_mod_left]
    have hvalue : (0x01 :: aes.cbcEncrypt s.kEnc (s.iv aes) (iso78164Pad data)).length
        = (data.length / 16 + 1) * 16 + 1 := by
      rw [List.length_cons, aes.length_cbcEncrypt _ _ _ haligned, length_iso78164Pad]
    -- the three forms of the object's length octets
    rw [← h]
    by_cases hshort : (data.length / 16 + 1) * 16 + 1 < 0x80
    · rw [length_dataObject_short (by rw [hvalue]; exact hshort), hvalue]
      omega
    · by_cases hmedium : (data.length / 16 + 1) * 16 + 1 ≤ 0xFF
      · rw [length_dataObject_medium (by rw [hvalue]; omega) (by rw [hvalue]; omega), hvalue]
        omega
      · rw [length_dataObject_long (by rw [hvalue]; omega) (by rw [hvalue]; omega), hvalue]
        omega

/-! ## §7. When a refused command leaves the counter alone -/

theorem decodeShortApdu_spec {apdu data : Bytes} {le : Option UInt8}
    (h : decodeShortApdu apdu = some (data, le)) : 4 ≤ apdu.length ∧ data.length ≤ 255 := by
  unfold decodeShortApdu at h
  split at h
  next h4 =>
    injection h with h
    injection h with hdata
    subst hdata
    exact ⟨by omega, by decide⟩
  · split at h
    next h5 =>
      obtain ⟨b, -, hb⟩ := Option.map_eq_some_iff.mp h
      injection hb with hdata
      subst hdata
      exact ⟨by omega, by decide⟩
    · obtain ⟨lc, hlc, h⟩ := Option.bind_eq_some_iff.mp h
      have hbig : 4 < apdu.length := (List.getElem?_eq_some_iff.mp hlc).1
      have hmax : lc.toNat < 256 := lc.toNat_lt
      have hcut : ((apdu.drop 5).take lc.toNat).length ≤ 255 := by
        rw [List.length_take]
        omega
      simp only [Option.ite_none_left_eq_some] at h
      obtain ⟨-, h⟩ := h
      split at h
      · injection h with h
        injection h with hdata
        exact ⟨by omega, by rw [← hdata]; exact hcut⟩
      · simp only [Option.ite_none_right_eq_some, Option.map_eq_some_iff] at h
        obtain ⟨-, b, -, hb⟩ := h
        injection hb with hdata
        exact ⟨by omega, by rw [← hdata]; exact hcut⟩

/-- **What `wrap` can do**: refuse the shape with the counter as it was, or bump the
    counter and protect the command. -/
theorem wrap_cases (s : SmSession) (plain : Bytes) :
    (decodeShortApdu plain = none ∧
      ∃ what, (wrap aes s plain : _ × Except (SmError E) Bytes) = (s, .error (.malformed what))) ∨
    (∃ cla ins p1 p2 rest data le, plain = cla :: ins :: p1 :: p2 :: rest ∧
      decodeShortApdu plain = some (data, le) ∧
      (wrap aes s plain : _ × Except (SmError E) Bytes) = (s.incrementSsc,
        protectCommand aes s.incrementSsc [cla ||| 0x0C, ins, p1, p2] data le)) := by
  cases hd : decodeShortApdu plain with
  | none =>
    left
    refine ⟨rfl, ?_⟩
    unfold wrap
    split
    · rw [hd]
      exact ⟨_, rfl⟩
    · exact ⟨_, rfl⟩
  | some found =>
    right
    obtain ⟨data, le⟩ := found
    have hlen : 4 ≤ plain.length := (decodeShortApdu_spec hd).1
    match plain, hlen, hd with
    | cla :: ins :: p1 :: p2 :: rest, _, hd =>
      refine ⟨cla, ins, p1, p2, rest, data, le, rfl, rfl, ?_⟩
      unfold wrap
      rw [hd]

theorem protectCommand_eq (s : SmSession) (header : Bytes) {data do87 : Bytes}
    (le : Option UInt8) (hdo : (commandDo87 aes s data : Except (SmError E) Bytes) = .ok do87) :
    (protectCommand aes s header data le : Except (SmError E) Bytes) =
      if (commandBody aes s header do87 (commandDo97 le)).length ≤ 255 then
        .ok (header ++ UInt8.ofNat (commandBody aes s header do87 (commandDo97 le)).length ::
          commandBody aes s header do87 (commandDo97 le) ++ [0x00])
      else .error .commandTooLong := by
  unfold protectCommand
  rw [hdo]
  show (ensure _ _ >>= _) = _
  rw [ensure_bind]
  simp only [decide_eq_true_eq]
  rfl

/-- **The only refusal after the bump** is that the protected command is too long. -/
theorem protectCommand_error_iff (s : SmSession) (header : Bytes) {data : Bytes}
    (le : Option UInt8) (hdata : data.length ≤ 255) :
    (∃ e, (protectCommand aes s header data le : Except (SmError E) Bytes) = .error e) ↔
      240 ≤ data.length ∨ (le.isSome ∧ 224 ≤ data.length) := by
  obtain ⟨do87, hdo⟩ : ∃ do87, (commandDo87 aes s data : Except (SmError E) Bytes) = .ok do87 :=
    commandDo87_ok aes s data
  obtain ⟨halone, hbeside⟩ := length_commandDo87 aes s hdata hdo
  have hbody : (commandBody aes s header do87 (commandDo97 le)).length
      = do87.length + (if le.isSome then 3 else 0) + 10 := by
    rw [commandBody, List.length_append, List.length_append, length_do8E, length_commandDo97]
  have hiff : (∃ e, (protectCommand aes s header data le : Except (SmError E) Bytes) = .error e)
      ↔ 255 < do87.length + (if le.isSome then 3 else 0) + 10 := by
    rw [protectCommand_eq aes s header le hdo, hbody]
    by_cases hfits : do87.length + (if le.isSome then 3 else 0) + 10 ≤ 255
    · rw [if_pos hfits]
      exact iff_of_false (fun ⟨e, he⟩ => by cases he) (by omega)
    · rw [if_neg hfits]
      exact iff_of_true ⟨_, rfl⟩ (by omega)
  rw [hiff]
  clear hiff hbody
  cases le with
  | none =>
    simp only [Option.isSome_none, Bool.false_eq_true, if_false, false_and, or_false]
    omega
  | some le =>
    simp only [Option.isSome_some, if_true, true_and]
    omega

/-- A short command whose protected form passes 255 octets: 240 octets of data, or 224
    with an `Le`. -/
def wrappedTooLong (plain : Bytes) : Bool :=
  match decodeShortApdu plain with
  | none => false
  | some (data, le) => 240 ≤ data.length || (le.isSome && 224 ≤ data.length)

theorem wrap_error_of_tooLong (s : SmSession) {plain : Bytes} (h : wrappedTooLong plain = true) :
    (wrap aes s plain : _ × Except (SmError E) Bytes).1 = s.incrementSsc ∧
      ∃ e, (wrap aes s plain : _ × Except (SmError E) Bytes).2 = .error e := by
  obtain ⟨hd, -⟩ | ⟨cla, ins, p1, p2, rest, data, le, -, hd, hw⟩ :=
    wrap_cases (E := E) aes s plain
  · simp [wrappedTooLong, hd] at h
  · have hlong : 240 ≤ data.length ∨ (le.isSome ∧ 224 ≤ data.length) := by
      simpa [wrappedTooLong, hd] using h
    rw [hw]
    exact ⟨rfl, (protectCommand_error_iff aes _ _ le (decodeShortApdu_spec hd).2).mpr hlong⟩

/-- **A refused command leaves the counter alone** exactly when it is not one that is found
    too long after wrapping: there the counter has been bumped already. -/
theorem wrap_atomic_iff (s : SmSession) (plain : Bytes) :
    (∀ e : SmError E, (wrap aes s plain).2 = .error e →
      (wrap aes s plain : _ × Except (SmError E) Bytes).1.ssc = s.ssc) ↔
      wrappedTooLong plain = false := by
  constructor
  · intro h
    by_contra hlong
    obtain ⟨hs, e, he⟩ := wrap_error_of_tooLong (E := E) aes s (Bool.not_eq_false _ ▸ hlong)
    have hssc : (wrap aes s plain : _ × Except (SmError E) Bytes).1.ssc = s.ssc := h e he
    rw [hs] at hssc
    exact Ssc.increment_ne s.ssc hssc
  · intro hfits e he
    obtain ⟨-, what, hw⟩ | ⟨cla, ins, p1, p2, rest, data, le, -, hd, hw⟩ :=
      wrap_cases (E := E) aes s plain
    · rw [hw]
    · have hlong : 240 ≤ data.length ∨ (le.isSome ∧ 224 ≤ data.length) := by
        rw [hw] at he
        exact (protectCommand_error_iff aes _ _ le (decodeShortApdu_spec hd).2).mp ⟨e, he⟩
      have hno : data.length < 240 ∧ (le.isSome → data.length < 224) := by
        simpa [wrappedTooLong, hd] using hfits
      rcases hlong with hdata | ⟨hle, hdata⟩
      · omega
      · have := hno.2 hle
        omega

/-- UPDATE BINARY with 240 octets. -/
def longCommand : Bytes := [0x00, 0xD6, 0x00, 0x00, 0xF0] ++ List.replicate 240 0x00

theorem longCommand_bumps :
    ¬ ∀ e : SmError String, (wrap sampleAes sampleSession longCommand).2 = .error e →
      (wrap sampleAes sampleSession longCommand : _ × Except (SmError String) _).1.ssc
        = sampleSession.ssc := by
  intro h
  exact absurd (h .commandTooLong (by decide +kernel)) (by decide +kernel)

/-! ## §8. What an accepted answer carried -/

/-- The answer holds an object of this tag and value. -/
def Carries (response : Bytes) (tag : Nat) (value : Bytes) : Prop :=
  ∃ size, .ok ⟨tag, value, size⟩ ∈ children response

/-- The value of the last object of a tag. -/
def lastObject (tag : Nat) (objects : List BerTlvAny) : Option Bytes :=
  objects.foldl (fun found t => if t.tag = tag then some t.value else found) none

/-- **The authenticated objects of an answer**: its DO87 if it has one, its DO99, and a
    DO8E that is the MAC over the two under the session's key and counter. -/
structure Protects (s : SmSession) (response : Bytes) (do87 : Option Bytes) (sw1 sw2 : UInt8) :
    Prop where
  do87_some : ∀ v, do87 = some v → Carries response 0x87 v
  do87_none : do87 = none → ∀ v, ¬ Carries response 0x87 v
  do99 : Carries response 0x99 [sw1, sw2]
  do8E : Carries response 0x8E
    (aes256CmacTruncated aes s.kMac (responseMacInput s do87 [sw1, sw2]))

/-- Body and status were taken from authenticated objects. -/
def Authenticated (s : SmSession) (response body : Bytes) (sw1 sw2 : UInt8) : Prop :=
  ∃ do87, Protects aes s response do87 sw1 sw2 ∧ decryptBody aes s do87 = .ok body

theorem foldl_take (objects : List BerTlvAny) (o : Objects) :
    objects.foldl Objects.take o =
      ⟨objects.foldl (fun found t => if t.tag = 0x87 then some t.value else found) o.do87,
        objects.foldl (fun found t => if t.tag = 0x99 then some t.value else found) o.do99,
        objects.foldl (fun found t => if t.tag = 0x8E then some t.value else found) o.do8E⟩ := by
  induction objects generalizing o with
  | nil => rfl
  | cons t rest ih =>
    simp only [List.foldl_cons]
    rw [ih]
    -- the three tags are different, so a turn moves one field only
    unfold Objects.take
    by_cases h87 : t.tag = 0x87
    · simp [h87]
    · by_cases h99 : t.tag = 0x99
      · simp [h99]
      · by_cases h8E : t.tag = 0x8E
        · simp [h8E]
        · simp [h87, h99, h8E]

/-- **The walk keeps the last object of each tag.** -/
theorem collectObjects_eq_ok {response : Bytes} {o : Objects} :
    (collectObjects response : Except (SmError E) Objects) = .ok o ↔
      ∃ objects, children response = objects.map .ok ∧
        o = ⟨lastObject 0x87 objects, lastObject 0x99 objects, lastObject 0x8E objects⟩ := by
  simp only [collectObjects, bind_eq_ok, pure_eq_ok, collect_eq_ok, foldl_take]
  constructor
  · intro ⟨objects, hc, ho⟩
    exact ⟨objects, hc, ho.symm⟩
  · intro ⟨objects, hc, ho⟩
    exact ⟨objects, hc, ho.symm⟩

theorem lastObject_append (tag : Nat) (objects : List BerTlvAny) (t : BerTlvAny) :
    lastObject tag (objects ++ [t]) =
      if t.tag = tag then some t.value else lastObject tag objects := by
  simp [lastObject, List.foldl_append]

theorem lastObject_some {tag : Nat} {objects : List BerTlvAny} {v : Bytes}
    (h : lastObject tag objects = some v) : ∃ size, ⟨tag, v, size⟩ ∈ objects := by
  induction objects using List.reverseRecOn with
  | nil => simp [lastObject] at h
  | append_singleton rest t ih =>
    rw [lastObject_append] at h
    split at h
    next htag =>
      injection h with h
      exact ⟨t.size, by simp [← h, ← htag]⟩
    · obtain ⟨size, hmem⟩ := ih h
      exact ⟨size, List.mem_append_left _ hmem⟩

theorem lastObject_none {tag : Nat} {objects : List BerTlvAny}
    (h : lastObject tag objects = none) : ∀ t ∈ objects, t.tag ≠ tag := by
  induction objects using List.reverseRecOn with
  | nil => simp
  | append_singleton rest t ih =>
    rw [lastObject_append] at h
    split at h
    · exact absurd h (by simp)
    next htag =>
      intro u hu
      rcases List.mem_append.mp hu with hu | hu
      · exact ih h u hu
      · rw [List.mem_singleton.mp hu]
        exact htag

theorem statusOctets_eq_ok {do99 : Bytes} {sw : UInt8 × UInt8} :
    (statusOctets do99 : Except (SmError E) _) = .ok sw ↔ do99 = [sw.1, sw.2] := by
  match do99 with
  | [] => simp [statusOctets]
  | [_] => simp [statusOctets]
  | [sw1, sw2] => simp [statusOctets, Prod.ext_iff]
  | _ :: _ :: _ :: _ => simp [statusOctets]

/-- What opening the objects checks. -/
theorem openObjects_eq_ok {s : SmSession} {o : Objects} {body : Bytes} {sw1 sw2 : UInt8} :
    (openObjects aes s o : Except (SmError E) _) = .ok (body, sw1, sw2) ↔
      o.do99 = some [sw1, sw2] ∧
      o.do8E = some (aes256CmacTruncated aes s.kMac (responseMacInput s o.do87 [sw1, sw2])) ∧
      decryptBody aes s o.do87 = .ok body := by
  simp only [openObjects, bind_eq_ok, okOr_eq_ok, ensure_eq_ok, statusOctets_eq_ok,
    mapError_eq_ok_iff, pure_eq_ok, Prod.mk.injEq, decide_eq_true_eq]
  constructor
  · intro hx
    obtain ⟨do99, h99, do8E, h8E, sw, rfl, -, -, -, hmac, body', hbody, rfl, hsw⟩ := hx
    subst hsw
    rw [hmac]
    exact ⟨h99, h8E, hbody⟩
  · intro ⟨h99, h8E, hbody⟩
    exact ⟨_, h99, _, h8E, (sw1, sw2), rfl, (), length_cmacTruncated aes _ _, (), rfl, body, hbody,
      rfl, rfl⟩

theorem unwrap_authenticated {s : SmSession} {response body : Bytes} {sw1 sw2 : UInt8}
    (h : (unwrap aes s response : _ × Except (SmError E) _).2 = .ok (body, sw1, sw2)) :
    Authenticated aes s.incrementSsc response body sw1 sw2 := by
  obtain ⟨o, hcollect, hopen⟩ := bind_eq_ok.mp h
  obtain ⟨objects, hc, rfl⟩ := collectObjects_eq_ok.mp hcollect
  obtain ⟨h99, h8E, hbody⟩ := (openObjects_eq_ok aes).mp hopen
  have carried : ∀ {tag : Nat} {v : Bytes}, lastObject tag objects = some v →
      Carries response tag v := by
    intro tag v hv
    obtain ⟨size, hmem⟩ := lastObject_some hv
    exact ⟨size, by rw [hc]; exact List.mem_map_of_mem hmem⟩
  refine ⟨lastObject 0x87 objects, ⟨fun v hv => carried hv, ?_, carried h99, carried h8E⟩, hbody⟩
  intro hnone v ⟨size, hmem⟩
  rw [hc] at hmem
  obtain ⟨t, ht, heq⟩ := List.mem_map.mp hmem
  injection heq with heq
  exact lastObject_none hnone t ht (by rw [heq])

/-! ## §9. Unauthenticated answers -/

/-- **What a returned response can be**: a bare answer of the inner transport, or what
    unwrapping an answer with a body gave. -/
theorem transmitOutcome_response {s : SmSession} {apdu : CommandApdu}
    {inner : CommandApdu → Except E TransportOutcome} {r : ResponseApdu}
    (h : (transmitOutcome aes s apdu inner).2 = .ok (.response r)) :
    ∃ wrapped raw, wrap aes s apdu.bytes = (s.incrementSsc, (.ok wrapped : Except (SmError E) _)) ∧
      inner (.new wrapped) = .ok (.response raw) ∧
      ((raw.body = [] ∧ r = raw) ∨ (raw.body ≠ [] ∧
        (unwrap aes s.incrementSsc raw.body : _ × Except (SmError E) _).2
          = .ok (r.body, r.sw1, r.sw2))) := by
  unfold transmitOutcome at h
  obtain ⟨-, what, hw⟩ | ⟨cla, ins, p1, p2, rest, data, le, -, -, hw⟩ :=
    wrap_cases (E := E) aes s apdu.bytes
  · rw [hw] at h
    cases h
  · rw [hw] at h
    rw [hw]
    cases hp : (protectCommand aes s.incrementSsc [cla ||| 0x0C, ins, p1, p2] data le :
        Except (SmError E) Bytes) with
    | error e =>
      rw [hp] at h
      cases h
    | ok wrapped =>
      rw [hp] at h
      refine ⟨wrapped, ?_⟩
      cases hi : inner (.new wrapped) with
      | error e =>
        simp only [hi] at h
        cases h
      | ok outcome =>
        simp only [hi] at h
        cases outcome with
        | response raw =>
          refine ⟨raw, rfl, rfl, ?_⟩
          by_cases hbody : raw.body = []
          · left
            simp only [hbody, if_true] at h
            injection h with h
            injection h with h
            exact ⟨hbody, h.symm⟩
          · right
            refine ⟨hbody, ?_⟩
            simp only [if_neg hbody] at h
            split at h
            · cases h
            next hu =>
              rw [hu]
              injection h with h
              injection h with h
              rw [← h]
        | noCard => cases h
        | timeoutUnknownState => cases h
        | cardReset => cases h
        | protocolDesync => cases h
        | readerRemoved => cases h

/-- **No unauthenticated success**: a returned `9000` or a returned body comes from
    objects the answer's MAC covers, and an answer without a MAC gives neither. -/
def AuthenticSuccess (s : SmSession) (apdu : CommandApdu)
    (inner : CommandApdu → Except E TransportOutcome) : Prop :=
  ∀ r, (transmitOutcome aes s apdu inner).2 = .ok (.response r) →
    ∃ wrapped raw, (wrap aes s apdu.bytes : _ × Except (SmError E) _).2 = .ok wrapped ∧
      inner (.new wrapped) = .ok (.response raw) ∧
      (r.sw = 0x9000 ∨ r.body ≠ [] →
        Authenticated aes s.incrementSsc.incrementSsc raw.body r.body r.sw1 r.sw2) ∧
      ((∀ v, ¬ Carries raw.body 0x8E v) → r.sw ≠ 0x9000 ∧ r.body = [])

/-- The answer `90 00` with nothing in front of it. -/
def bareSuccess : ResponseApdu := ⟨[], 0x90, 0x00⟩

theorem children_nil : children [] = [] := rfl

theorem not_carries_nil (tag : Nat) (value : Bytes) : ¬ Carries [] tag value := by
  intro hx
  obtain ⟨size, hmem⟩ := hx
  rw [children_nil] at hmem
  exact absurd hmem (by simp)

/-- Of the bare answers only `9000` comes out as a success or with a body. -/
theorem bare_eq_bareSuccess {raw : ResponseApdu} (hbody : raw.body = [])
    (h : raw.sw = 0x9000 ∨ raw.body ≠ []) : raw = bareSuccess := by
  rcases h with h | h
  · obtain ⟨h1, h2⟩ := (sw_eq_success_iff raw).mp h
    cases raw
    simp_all [bareSuccess]
  · exact absurd hbody h

/-- **A success or a body is authenticated** exactly when the inner transport does not
    answer the wrapped command with a bare `9000`, which goes through as it came. -/
theorem transmitOutcome_authenticated (s : SmSession) (apdu : CommandApdu)
    (inner : CommandApdu → Except E TransportOutcome) :
    AuthenticSuccess aes s apdu inner ↔
      ∀ wrapped, (wrap aes s apdu.bytes : _ × Except (SmError E) _).2 = .ok wrapped →
        inner (.new wrapped) ≠ .ok (.response bareSuccess) := by
  constructor
  · intro h wrapped hw hbare
    have hout : (transmitOutcome aes s apdu inner).2 = .ok (.response bareSuccess) := by
      unfold transmitOutcome
      generalize wrap aes s apdu.bytes = done at hw
      obtain ⟨s', result⟩ := done
      subst hw
      simp only [hbare]
      rfl
    obtain ⟨wrapped', raw, hw', hraw, hauth, -⟩ := h _ hout
    have hsame : wrapped' = wrapped := by
      rw [hw'] at hw
      injection hw
    rw [hsame, hbare] at hraw
    injection hraw with hraw
    injection hraw with hraw
    obtain ⟨do87, hprot, -⟩ := hauth (.inl rfl)
    rw [← hraw] at hprot
    exact not_carries_nil _ _ hprot.do99
  · intro h r hout
    obtain ⟨wrapped, raw, hw, hraw, hcase⟩ := transmitOutcome_response aes hout
    refine ⟨wrapped, raw, by rw [hw], hraw, ?_⟩
    rcases hcase with ⟨hbody, rfl⟩ | ⟨-, hunwrap⟩
    · -- bare, and not `9000`: neither a success nor a body
      have hnot : ¬ (r.sw = 0x9000 ∨ r.body ≠ []) := fun hc =>
        h wrapped (by rw [hw]) (by rw [hraw, bare_eq_bareSuccess hbody hc])
      exact ⟨fun hc => absurd hc hnot, fun _ => ⟨fun hsw => hnot (.inl hsw), hbody⟩⟩
    · have hauth := unwrap_authenticated aes hunwrap
      refine ⟨fun _ => hauth, fun hno => ?_⟩
      obtain ⟨do87, hprot, -⟩ := hauth
      exact absurd hprot.do8E (hno _)

/-- A bare `9000` is reported as the card's success. -/
theorem bareSuccess_unauthenticated :
    ¬ AuthenticSuccess sampleAes sampleSession (.new selectCommand)
      (fun _ => (.ok (.response bareSuccess) : Except String TransportOutcome)) := by
  intro h
  obtain ⟨wrapped, raw, -, hraw, hauth, -⟩ := h bareSuccess (by decide +kernel)
  injection hraw with hraw
  injection hraw with hraw
  obtain ⟨do87, hprot, -⟩ := hauth (.inl rfl)
  rw [← hraw] at hprot
  exact not_carries_nil _ _ hprot.do99

end

end SecureMessaging

end RefineId
