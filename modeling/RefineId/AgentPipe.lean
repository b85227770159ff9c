/-
  RefineId.AgentPipe — the messages on the agent's pipe.
  ════════════════════════════════════════════════════════════════════════════

  `crates/refineid-agent-pipe/src/wire.rs` writes and reads one signature request and one
  answer.  Two processes must agree on every message, so what a decoder accepts is exactly
  what the encoder writes: no second spelling, nothing shorter, nothing longer.

  The size of a pairing id is a constant of the engine and a parameter here.

  Main results:
    • `profileFrom_eq_ok`, `algorithmFrom_eq_ok` : the code tables invert each other.
    • `reads_request`, `reads_answer`            : what the readers take off the input.
    • `request_decode_iff`, `answer_decode_iff`  : accepted is exactly encoded and valid.
    • `wire_bijection`                           : the whole contract.
-/
import RefineId.PairingRecord
import RefineId.Lib.Reader

namespace RefineId.AgentPipe

open Lib
open Pairing (PairId)

/-! ## §1. Constants and codes -/

/-- `WIRE_VERSION`. -/
def wireVersion : UInt8 := 1

/-- `MAX_MESSAGE`. -/
def maxMessage : Nat := 1024

/-- `MAX_SIGNATURE`. -/
def maxSignature : Nat := 384

/-- `KIND_SIGN`. -/
def kindSign : UInt8 := 1

/-- `WireError`. -/
inductive WireError where
  | oversized
  | version
  | kind
  | length
  | profile
  | algorithm
  | digest
  | signature
  | mismatch
  deriving Repr, DecidableEq

/-- `CardKeyProfile` of the engine. -/
inductive KeyProfile where
  | ecdsaP256
  | ecdsaP384
  | rsa2048
  | rsa3072
  deriving Repr, DecidableEq

/-- `SignatureAlgorithm` of the engine. -/
inductive SignatureAlgorithm where
  | ecdsaSha224
  | ecdsaSha256
  | ecdsaSha384
  | ecdsaSha512
  | rsaPkcs1Sha256
  | rsaPkcs1Sha384
  | rsaPkcs1Sha512
  | rsaPssSha256
  deriving Repr, DecidableEq

/-- `SignatureAlgorithmExt::digest_length`. -/
def SignatureAlgorithm.digestLength : SignatureAlgorithm → Nat
  | .ecdsaSha224 => 28
  | .ecdsaSha256 | .rsaPkcs1Sha256 | .rsaPssSha256 => 32
  | .ecdsaSha384 | .rsaPkcs1Sha384 => 48
  | .ecdsaSha512 | .rsaPkcs1Sha512 => 64

/-- Whether the algorithm is one of elliptic curves. -/
def SignatureAlgorithm.isEcdsa : SignatureAlgorithm → Bool
  | .ecdsaSha224 | .ecdsaSha256 | .ecdsaSha384 | .ecdsaSha512 => true
  | _ => false

/-- `suits`. -/
def suits (profile : KeyProfile) (algorithm : SignatureAlgorithm) : Bool :=
  match profile with
  | .ecdsaP256 | .ecdsaP384 => algorithm.isEcdsa
  | .rsa2048 | .rsa3072 => !algorithm.isEcdsa

/-- `profile_code`. -/
def profileCode : KeyProfile → UInt8
  | .ecdsaP256 => 1
  | .ecdsaP384 => 2
  | .rsa2048 => 3
  | .rsa3072 => 4

/-- `profile_from`. -/
def profileFrom (code : UInt8) : Except WireError KeyProfile :=
  if code = 1 then .ok .ecdsaP256
  else if code = 2 then .ok .ecdsaP384
  else if code = 3 then .ok .rsa2048
  else if code = 4 then .ok .rsa3072
  else .error .profile

/-- `algorithm_code`. -/
def algorithmCode : SignatureAlgorithm → UInt8
  | .ecdsaSha224 => 1
  | .ecdsaSha256 => 2
  | .ecdsaSha384 => 3
  | .ecdsaSha512 => 4
  | .rsaPkcs1Sha256 => 5
  | .rsaPkcs1Sha384 => 6
  | .rsaPkcs1Sha512 => 7
  | .rsaPssSha256 => 8

/-- `algorithm_from`. -/
def algorithmFrom (code : UInt8) : Except WireError SignatureAlgorithm :=
  if code = 1 then .ok .ecdsaSha224
  else if code = 2 then .ok .ecdsaSha256
  else if code = 3 then .ok .ecdsaSha384
  else if code = 4 then .ok .ecdsaSha512
  else if code = 5 then .ok .rsaPkcs1Sha256
  else if code = 6 then .ok .rsaPkcs1Sha384
  else if code = 7 then .ok .rsaPkcs1Sha512
  else if code = 8 then .ok .rsaPssSha256
  else .error .algorithm

/-! ## §2. The reader -/

/-- `Reader::byte`. -/
def byte : Reader WireError UInt8 UInt8 := Reader.next .length

/-- `Reader::take`. -/
def take (count : Nat) : Reader WireError UInt8 Bytes := Reader.take .length count

/-- The version byte, as `Reader::new` checks it. -/
def version : Reader WireError UInt8 Unit := do
  let first ← byte
  Reader.lift (ensure (first == wireVersion) .version)

/-- `Reader::new` and the fields, up to `Reader::end`. -/
def readMessage {α : Type} (fields : Reader WireError UInt8 α) (bytes : Bytes) :
    Except WireError α :=
  if maxMessage < bytes.length then .error .oversized
  else (do version; fields : Reader WireError UInt8 α).whole .length bytes

/-! ## §3. Requests -/

/-- `SignRequest`. -/
structure SignRequest (pairIdLen : Nat) where
  pairId : PairId pairIdLen
  keyProfile : KeyProfile
  algorithm : SignatureAlgorithm
  digest : Bytes
  deriving DecidableEq

section
variable {pairIdLen : Nat}

/-- `SignRequest::new`. -/
def SignRequest.new (pairId : PairId pairIdLen) (keyProfile : KeyProfile)
    (algorithm : SignatureAlgorithm) (digest : Bytes) :
    Except WireError (SignRequest pairIdLen) := do
  ensure (suits keyProfile algorithm) .mismatch
  ensure (digest.length == algorithm.digestLength) .digest
  .ok ⟨pairId, keyProfile, algorithm, digest⟩

/-- The checks of `SignRequest::new` pass on the request's own fields. -/
def SignRequest.Checked (r : SignRequest pairIdLen) : Prop :=
  SignRequest.new r.pairId r.keyProfile r.algorithm r.digest = .ok r

/-- `SignRequest::encode`. -/
def SignRequest.encode (r : SignRequest pairIdLen) : Bytes :=
  [wireVersion, kindSign] ++ r.pairId.bytes ++
    [profileCode r.keyProfile, algorithmCode r.algorithm, UInt8.ofNat (min r.digest.length 255)] ++
    r.digest

/-- `<[u8; PAIR_ID_LEN]>::try_from`. -/
def tryFromSlice (bytes : Bytes) : Except WireError (PairId pairIdLen) :=
  if h : bytes.length = pairIdLen then .ok ⟨bytes, h⟩ else .error .length

/-- The kind byte of a request. -/
def SignRequest.kind : Reader WireError UInt8 Unit := do
  let kind ← byte
  Reader.lift (ensure (kind == kindSign) .kind)

/-- The pairing id. -/
def SignRequest.readPairId : Reader WireError UInt8 (PairId pairIdLen) := do
  let raw ← take pairIdLen
  Reader.lift (tryFromSlice raw)

/-- `profile_from(reader.byte()?)?`. -/
def SignRequest.readProfile : Reader WireError UInt8 KeyProfile := do
  let code ← byte
  Reader.lift (profileFrom code)

/-- `algorithm_from(reader.byte()?)?`. -/
def SignRequest.readAlgorithm : Reader WireError UInt8 SignatureAlgorithm := do
  let code ← byte
  Reader.lift (algorithmFrom code)

/-- The digest behind its length byte. -/
def SignRequest.readDigest : Reader WireError UInt8 Bytes := do
  let digestLen ← byte
  take digestLen.toNat

/-- The fields `SignRequest::decode` reads, in order. -/
def SignRequest.fields :
    Reader WireError UInt8 (PairId pairIdLen × KeyProfile × SignatureAlgorithm × Bytes) := do
  SignRequest.kind
  let pairId ← SignRequest.readPairId
  let keyProfile ← SignRequest.readProfile
  let algorithm ← SignRequest.readAlgorithm
  let digest ← SignRequest.readDigest
  return (pairId, keyProfile, algorithm, digest)

/-- `SignRequest::decode`. -/
def SignRequest.decode (bytes : Bytes) : Except WireError (SignRequest pairIdLen) := do
  let (pairId, keyProfile, algorithm, digest) ← readMessage SignRequest.fields bytes
  SignRequest.new pairId keyProfile algorithm digest

end

/-! ## §4. Answers -/

/-- `SignAnswer`. -/
inductive SignAnswer where
  | signature (bytes : Bytes)
  | denied
  | cancelled
  | rejected
  | lost
  | noPhone
  | busy
  | failed
  deriving Repr, DecidableEq

/-- The kind byte of an answer. -/
def SignAnswer.kind : SignAnswer → UInt8
  | .signature _ => 1
  | .denied => 2
  | .cancelled => 3
  | .rejected => 4
  | .lost => 5
  | .noPhone => 6
  | .busy => 7
  | .failed => 8

/-- The bytes of an answer that can be sent as it is: a signature carries its length,
    little-endian in two bytes. -/
def SignAnswer.body : SignAnswer → Bytes
  | .signature signed =>
    let length := min signed.length 65535
    [UInt8.ofNat length, UInt8.ofNat (length / 256)] ++ signed
  | _ => []

/-- What is sent of an answer: an unsendable signature goes out as a failure. -/
def SignAnswer.sent : SignAnswer → SignAnswer
  | .signature signed =>
    if signed.isEmpty ∨ maxSignature < signed.length then .failed else .signature signed
  | answer => answer

/-- `SignAnswer::encode`. -/
def SignAnswer.encode (answer : SignAnswer) : Bytes :=
  [wireVersion, answer.sent.kind] ++ answer.sent.body

/-- What follows the kind byte.  The two length bytes come off as one slice in the
    source; either way a missing one is `WireError::Length`. -/
def SignAnswer.rest (kind : UInt8) : Reader WireError UInt8 SignAnswer :=
  if kind = 1 then do
    let low ← byte
    let high ← byte
    let length := low.toNat + 256 * high.toNat
    Reader.lift (ensure (length != 0 && length ≤ maxSignature) .signature)
    let signed ← take length
    return .signature signed
  else if kind = 2 then return .denied
  else if kind = 3 then return .cancelled
  else if kind = 4 then return .rejected
  else if kind = 5 then return .lost
  else if kind = 6 then return .noPhone
  else if kind = 7 then return .busy
  else if kind = 8 then return .failed
  else Reader.lift (.error .kind)

/-- `SignAnswer::decode`. -/
def SignAnswer.decode (bytes : Bytes) : Except WireError SignAnswer :=
  readMessage (do let kind ← byte; SignAnswer.rest kind) bytes

/-- The answers that are sent as they are. -/
def SignAnswer.Valid : SignAnswer → Prop
  | .signature signed => 1 ≤ signed.length ∧ signed.length ≤ maxSignature
  | _ => True

/-! ## §5. The code tables -/

theorem profileFrom_eq_ok {code : UInt8} {profile : KeyProfile} :
    profileFrom code = .ok profile ↔ code = profileCode profile := by
  constructor
  · intro h
    unfold profileFrom at h
    repeat' split at h
    all_goals first
      | (injection h with h; subst h; assumption)
      | cases h
  · rintro rfl
    cases profile <;> rfl

theorem algorithmFrom_eq_ok {code : UInt8} {algorithm : SignatureAlgorithm} :
    algorithmFrom code = .ok algorithm ↔ code = algorithmCode algorithm := by
  constructor
  · intro h
    unfold algorithmFrom at h
    repeat' split at h
    all_goals first
      | (injection h with h; subst h; assumption)
      | cases h
  · rintro rfl
    cases algorithm <;> rfl

theorem digestLength_le (algorithm : SignatureAlgorithm) : algorithm.digestLength ≤ 64 := by
  cases algorithm <;> decide

/-! ## §6. What the readers take -/

theorem reads_byte : Reads byte fun b items => items = [b] := reads_next _

theorem reads_taken (count : Nat) : Reads (take count) fun bs items => items = bs ∧ bs.length = count :=
  reads_take _ _

/-- A byte that is checked and stands for a value. -/
theorem reads_coded {α : Type} {from' : UInt8 → Except WireError α} {W : α → UInt8 → Prop}
    (h : ∀ code a, from' code = .ok a ↔ W a code) :
    Reads (do let code ← byte; Reader.lift (from' code)) fun a items =>
      ∃ code, W a code ∧ items = [code] := by
  refine (reads_byte.bind fun code => reads_lift).congr fun a items => ?_
  constructor
  · intro hx
    obtain ⟨code, front, back, rfl, ⟨hok, rfl⟩, rfl⟩ := hx
    exact ⟨code, (h code a).mp hok, rfl⟩
  · intro hx
    obtain ⟨code, hcode, rfl⟩ := hx
    exact ⟨code, [code], [], rfl, ⟨(h code a).mpr hcode, rfl⟩, rfl⟩

theorem ensure_beq {b c : UInt8} {e : WireError} {u : Unit} :
    ensure (b == c) e = .ok u ↔ b = c := by
  rw [ensure_eq_ok, beq_iff_eq]

theorem reads_version : Reads version fun _ items => items = [wireVersion] :=
  (reads_coded fun _ _ => ensure_beq).congr fun _ _ => by simp

theorem reads_kind : Reads SignRequest.kind fun _ items => items = [kindSign] :=
  (reads_coded fun _ _ => ensure_beq).congr fun _ _ => by simp

theorem reads_profile :
    Reads SignRequest.readProfile fun profile items => items = [profileCode profile] :=
  (reads_coded fun _ _ => profileFrom_eq_ok).congr fun _ _ => by simp

theorem reads_algorithm :
    Reads SignRequest.readAlgorithm fun algorithm items => items = [algorithmCode algorithm] :=
  (reads_coded fun _ _ => algorithmFrom_eq_ok).congr fun _ _ => by simp

theorem reads_digest : Reads SignRequest.readDigest fun digest items =>
    digest.length < 256 ∧ items = UInt8.ofNat digest.length :: digest := by
  refine (reads_byte.bind fun digestLen => reads_taken digestLen.toNat).congr fun digest items => ?_
  constructor
  · intro hx
    obtain ⟨digestLen, front, back, rfl, ⟨rfl, hlen⟩, rfl⟩ := hx
    rw [hlen]
    exact ⟨digestLen.toNat_lt, by simp⟩
  · intro hx
    obtain ⟨hlt, rfl⟩ := hx
    refine ⟨UInt8.ofNat digest.length, [_], digest, rfl, ⟨rfl, ?_⟩, rfl⟩
    rw [Ber.uint8_ofNat_toNat]
    omega

/-- A message is accepted when it fits, carries the version, and its fields fill the rest. -/
theorem readMessage_eq_ok {α : Type} {fields : Reader WireError UInt8 α} {W : α → Bytes → Prop}
    (hfields : Reads fields W) {bytes : Bytes} {a : α} :
    readMessage fields bytes = .ok a ↔
      bytes.length ≤ maxMessage ∧ ∃ rest, W a rest ∧ bytes = wireVersion :: rest := by
  unfold readMessage
  by_cases hlong : maxMessage < bytes.length
  · rw [if_pos hlong]
    constructor
    · intro h
      cases h
    · intro hx
      obtain ⟨hle, -⟩ := hx
      omega
  · rw [if_neg hlong, (reads_version.bind fun _ => hfields).complete]
    constructor
    · intro hx
      obtain ⟨-, front, back, rfl, hback, rfl⟩ := hx
      exact ⟨by omega, back, hback, rfl⟩
    · intro hx
      obtain ⟨-, rest, hrest, rfl⟩ := hx
      exact ⟨(), [wireVersion], rest, rfl, hrest, rfl⟩

section
variable {pairIdLen : Nat}

theorem tryFromSlice_eq_ok {raw : Bytes} {pairId : PairId pairIdLen} :
    tryFromSlice raw = .ok pairId ↔ raw = pairId.bytes := by
  unfold tryFromSlice
  constructor
  · intro h
    split at h
    · injection h with h
      rw [← h]
    · cases h
  · rintro rfl
    rw [dif_pos pairId.length_eq]

theorem reads_pairId :
    Reads (@SignRequest.readPairId pairIdLen) fun pairId items =>
      items = pairId.bytes := by
  refine ((reads_taken pairIdLen).bind fun raw => reads_lift).congr fun pairId items => ?_
  constructor
  · intro hx
    obtain ⟨raw, front, back, ⟨rfl, -⟩, ⟨hok, rfl⟩, rfl⟩ := hx
    rw [List.append_nil, tryFromSlice_eq_ok.mp hok]
  · rintro rfl
    exact ⟨pairId.bytes, pairId.bytes, [], ⟨rfl, pairId.length_eq⟩, ⟨tryFromSlice_eq_ok.mpr rfl, rfl⟩,
      by rw [List.append_nil]⟩

/-- The bytes of a request after its version byte. -/
def SignRequest.FieldBytes (f : PairId pairIdLen × KeyProfile × SignatureAlgorithm × Bytes)
    (items : Bytes) : Prop :=
  f.2.2.2.length < 256 ∧
    items = kindSign :: (f.1.bytes ++ profileCode f.2.1 :: algorithmCode f.2.2.1 ::
      UInt8.ofNat f.2.2.2.length :: f.2.2.2)

/-- **What the request reader takes off the input.** -/
theorem reads_request : Reads (@SignRequest.fields pairIdLen) SignRequest.FieldBytes := by
  refine (reads_kind.bind fun _ => reads_pairId.bind fun pairId => reads_profile.bind fun profile =>
    reads_algorithm.bind fun algorithm => reads_digest.bind fun digest =>
    reads_pure (pairId, profile, algorithm, digest)).congr fun f items => ?_
  constructor
  · intro hx
    obtain ⟨-, _, _, rfl, ⟨pairId, _, _, rfl, ⟨profile, _, _, rfl, ⟨algorithm, _, _, rfl,
      ⟨digest, _, _, ⟨hlt, rfl⟩, ⟨rfl, rfl⟩, rfl⟩, rfl⟩, rfl⟩, rfl⟩, rfl⟩ := hx
    exact ⟨hlt, by simp⟩
  · obtain ⟨pairId, profile, algorithm, digest⟩ := f
    intro hx
    obtain ⟨hlt, rfl⟩ := hx
    exact ⟨(), [kindSign], _, rfl, ⟨pairId, pairId.bytes, _, rfl, ⟨profile, [_], _, rfl,
      ⟨algorithm, [_], _, rfl, ⟨digest, _, [], ⟨hlt, rfl⟩, ⟨rfl, rfl⟩, rfl⟩, rfl⟩, rfl⟩, rfl⟩,
      by simp⟩

end

/-- The signature behind its length. -/
theorem reads_signature : Reads (SignAnswer.rest 1) fun answer items =>
    ∃ signed, answer = .signature signed ∧ answer.Valid ∧ items = answer.body := by
  have hshape : SignAnswer.rest 1 = (do
      let low ← byte
      let high ← byte
      Reader.lift (ensure (low.toNat + 256 * high.toNat != 0 &&
        low.toNat + 256 * high.toNat ≤ maxSignature) WireError.signature)
      let signed ← take (low.toNat + 256 * high.toNat)
      return SignAnswer.signature signed) := rfl
  rw [hshape]
  refine (reads_byte.bind fun low => reads_byte.bind fun high => reads_lift.bind fun _ =>
    (reads_taken (low.toNat + 256 * high.toNat)).bind fun signed =>
    reads_pure (SignAnswer.signature signed)).congr fun answer items => ?_
  constructor
  · intro hx
    obtain ⟨low, _, _, rfl, ⟨high, _, _, rfl, ⟨_, _, _, ⟨hok, rfl⟩, ⟨_, signed, _, ⟨rfl, hlen⟩,
      ⟨rfl, rfl⟩, rfl⟩, rfl⟩, rfl⟩, rfl⟩ := hx
    have hlow : low.toNat < 256 := low.toNat_lt
    have hhigh : high.toNat < 256 := high.toNat_lt
    rw [ensure_eq_ok, Bool.and_eq_true, bne_iff_ne, decide_eq_true_eq, ← hlen] at hok
    refine ⟨signed, rfl, ⟨by omega, hok.2⟩, ?_⟩
    have hmin : min signed.length 65535 = signed.length := by omega
    have hlowByte : UInt8.ofNat signed.length = low := by
      apply UInt8.toNat_inj.mp
      rw [Ber.uint8_ofNat_toNat]
      omega
    have hhighByte : UInt8.ofNat (signed.length / 256) = high := by
      apply UInt8.toNat_inj.mp
      rw [Ber.uint8_ofNat_toNat]
      omega
    simp [SignAnswer.body, hmin, hlowByte, hhighByte]
  · intro hx
    obtain ⟨signed, rfl, ⟨hpos, hle⟩, rfl⟩ := hx
    have hbound : signed.length ≤ 384 := hle
    have hmin : min signed.length 65535 = signed.length := by omega
    have hlow : (UInt8.ofNat signed.length).toNat = signed.length % 256 := Ber.uint8_ofNat_toNat _
    have hhigh : (UInt8.ofNat (signed.length / 256)).toNat = signed.length / 256 := by
      rw [Ber.uint8_ofNat_toNat]
      omega
    have hlength : (UInt8.ofNat signed.length).toNat +
        256 * (UInt8.ofNat (signed.length / 256)).toNat = signed.length := by
      rw [hlow, hhigh]
      omega
    refine ⟨UInt8.ofNat signed.length, [_], _, rfl, ⟨UInt8.ofNat (signed.length / 256), [_], _, rfl,
      ⟨(), [], _, ⟨?_, rfl⟩, ⟨signed, signed, [], ⟨rfl, hlength.symm⟩, ⟨rfl, rfl⟩, rfl⟩, rfl⟩, rfl⟩, ?_⟩
    · rw [hlength, ensure_eq_ok, Bool.and_eq_true, bne_iff_ne, decide_eq_true_eq]
      exact ⟨by omega, hle⟩
    · simp [SignAnswer.body, hmin]

/-- The reader behind the kind byte finds the answers of that kind. -/
theorem reads_rest (kind : UInt8) : Reads (SignAnswer.rest kind) fun answer items =>
    answer.Valid ∧ answer.kind = kind ∧ items = answer.body := by
  by_cases h1 : kind = 1
  · subst h1
    refine reads_signature.congr fun answer items => ?_
    constructor
    · intro hx
      obtain ⟨signed, rfl, hvalid, hitems⟩ := hx
      exact ⟨hvalid, rfl, hitems⟩
    · intro hx
      obtain ⟨hvalid, hkind, hitems⟩ := hx
      cases answer with
      | signature signed => exact ⟨signed, rfl, hvalid, hitems⟩
      | _ => cases hkind
  · -- every other kind is one answer without a body, or none
    unfold SignAnswer.rest
    rw [if_neg h1]
    repeat' split
    any_goals
      refine (reads_pure _).congr fun answer items => ?_
      subst_vars
      constructor
      · intro hx
        obtain ⟨rfl, rfl⟩ := hx
        exact ⟨trivial, rfl, rfl⟩
      · intro hx
        obtain ⟨-, hkind, rfl⟩ := hx
        cases answer with
        | signature signed => cases hkind
        | _ => first | exact ⟨rfl, rfl⟩ | cases hkind
    refine reads_lift.congr fun answer items => ?_
    constructor
    · intro hx
      obtain ⟨hok, -⟩ := hx
      cases hok
    · intro hx
      obtain ⟨-, hkind, -⟩ := hx
      cases answer <;> exact absurd hkind.symm (by assumption)

/-- **What the answer reader takes off the input.** -/
theorem reads_answer : Reads (do let kind ← byte; SignAnswer.rest kind) fun answer items =>
    answer.Valid ∧ items = answer.kind :: answer.body := by
  refine (reads_byte.bind reads_rest).congr fun answer items => ?_
  constructor
  · intro hx
    obtain ⟨kind, _, _, rfl, ⟨hvalid, rfl, rfl⟩, rfl⟩ := hx
    exact ⟨hvalid, rfl⟩
  · intro hx
    obtain ⟨hvalid, rfl⟩ := hx
    exact ⟨answer.kind, [_], _, rfl, ⟨hvalid, rfl, rfl⟩, rfl⟩

/-! ## §7. Accepted is exactly encoded -/

section
variable {pairIdLen : Nat}

theorem new_eq_ok {pairId : PairId pairIdLen} {keyProfile : KeyProfile}
    {algorithm : SignatureAlgorithm} {digest : Bytes} {r : SignRequest pairIdLen} :
    SignRequest.new pairId keyProfile algorithm digest = .ok r ↔
      suits keyProfile algorithm = true ∧ digest.length = algorithm.digestLength ∧
        r = ⟨pairId, keyProfile, algorithm, digest⟩ := by
  unfold SignRequest.new
  rw [ensure_bind]
  by_cases hsuits : suits keyProfile algorithm = true
  · rw [if_pos hsuits, ensure_bind]
    by_cases hlen : digest.length = algorithm.digestLength
    · simp [hsuits, hlen, eq_comm]
    · simp [hlen]
  · rw [if_neg hsuits]
    simp [hsuits]

theorem SignRequest.checked_iff {r : SignRequest pairIdLen} :
    r.Checked ↔ suits r.keyProfile r.algorithm = true ∧
      r.digest.length = r.algorithm.digestLength := by
  unfold SignRequest.Checked
  rw [new_eq_ok]
  simp

/-- A checked request is as short as its longest digest allows. -/
theorem SignRequest.Checked.length_le {r : SignRequest pairIdLen} (h : r.Checked) :
    r.encode.length ≤ pairIdLen + 69 := by
  have hlen := (SignRequest.checked_iff.mp h).2
  have hdigest := digestLength_le r.algorithm
  have hid := r.pairId.length_eq
  simp only [encode, List.length_append, List.length_cons, List.length_nil]
  omega

theorem SignRequest.Checked.fieldBytes {r : SignRequest pairIdLen} (h : r.Checked) :
    ∃ rest, SignRequest.FieldBytes (r.pairId, r.keyProfile, r.algorithm, r.digest) rest ∧
      r.encode = wireVersion :: rest := by
  have hlen := (SignRequest.checked_iff.mp h).2
  have hdigest := digestLength_le r.algorithm
  refine ⟨_, ⟨?_, rfl⟩, ?_⟩
  · show r.digest.length < 256
    omega
  · have hmin : min r.digest.length 255 = r.digest.length := by omega
    simp [encode, hmin]

/-- **A request is accepted exactly when it is the encoding of a checked one.** -/
theorem request_decode_iff (hid : pairIdLen ≤ 255) {bytes : Bytes} {r : SignRequest pairIdLen} :
    SignRequest.decode bytes = .ok r ↔ r.Checked ∧ bytes = r.encode := by
  unfold SignRequest.decode
  rw [bind_eq_ok]
  constructor
  · intro hx
    obtain ⟨⟨pairId, keyProfile, algorithm, digest⟩, hread, hnew⟩ := hx
    obtain ⟨-, rest, hrest, rfl⟩ := (readMessage_eq_ok reads_request).mp hread
    obtain ⟨hsuits, hlen, rfl⟩ := new_eq_ok.mp hnew
    have hchecked : (⟨pairId, keyProfile, algorithm, digest⟩ : SignRequest pairIdLen).Checked :=
      SignRequest.checked_iff.mpr ⟨hsuits, hlen⟩
    obtain ⟨rest', hrest', hencode⟩ := hchecked.fieldBytes
    refine ⟨hchecked, ?_⟩
    rw [hencode, hrest.2, hrest'.2]
  · intro hx
    obtain ⟨hchecked, rfl⟩ := hx
    obtain ⟨rest, hrest, hencode⟩ := hchecked.fieldBytes
    refine ⟨(r.pairId, r.keyProfile, r.algorithm, r.digest), ?_, hchecked⟩
    refine (readMessage_eq_ok reads_request).mpr ⟨?_, rest, hrest, hencode⟩
    have hle := hchecked.length_le
    unfold maxMessage
    omega

/-- No checked request is a proper beginning of another. -/
theorem request_extended {r r' : SignRequest pairIdLen} (h : r.Checked) (h' : r'.Checked)
    {rest : Bytes} (heq : r.encode ++ rest = r'.encode) : rest = [] := by
  obtain ⟨items, hitems, hencode⟩ := h.fieldBytes
  obtain ⟨items', hitems', hencode'⟩ := h'.fieldBytes
  rw [hencode, hencode', List.cons_append] at heq
  rw [← (List.cons.inj heq).2] at hitems'
  exact reads_request.extended hitems hitems'

end

theorem SignAnswer.Valid.encode_eq {answer : SignAnswer} (h : answer.Valid) :
    answer.encode = wireVersion :: answer.kind :: answer.body := by
  have hsent : answer.sent = answer := by
    cases answer with
    | signature signed =>
      obtain ⟨hpos, hle⟩ : 1 ≤ signed.length ∧ signed.length ≤ maxSignature := h
      rw [SignAnswer.sent, if_neg]
      rintro (hempty | hlong)
      · rw [List.isEmpty_iff] at hempty
        rw [hempty] at hpos
        cases hpos
      · omega
    | _ => rfl
  unfold SignAnswer.encode
  rw [hsent]
  rfl

theorem SignAnswer.Valid.length_le {answer : SignAnswer} (h : answer.Valid) :
    answer.encode.length ≤ maxSignature + 4 := by
  rw [h.encode_eq]
  cases answer with
  | signature signed =>
    have hle : signed.length ≤ maxSignature := h.2
    simp only [SignAnswer.body, List.length_cons, List.length_append, List.length_nil]
    omega
  | _ => simp [SignAnswer.body]

/-- **An answer is accepted exactly when it is the encoding of a valid one.** -/
theorem answer_decode_iff {bytes : Bytes} {answer : SignAnswer} :
    SignAnswer.decode bytes = .ok answer ↔ answer.Valid ∧ bytes = answer.encode := by
  unfold SignAnswer.decode
  rw [readMessage_eq_ok reads_answer]
  constructor
  · intro hx
    obtain ⟨-, rest, ⟨hvalid, rfl⟩, rfl⟩ := hx
    exact ⟨hvalid, hvalid.encode_eq.symm⟩
  · intro hx
    obtain ⟨hvalid, rfl⟩ := hx
    have hle := hvalid.length_le
    refine ⟨?_, _, ⟨hvalid, rfl⟩, hvalid.encode_eq⟩
    unfold maxMessage
    unfold maxSignature at hle
    omega

theorem answer_extended {answer answer' : SignAnswer} (h : answer.Valid) (h' : answer'.Valid)
    {rest : Bytes} (heq : answer.encode ++ rest = answer'.encode) : rest = [] := by
  rw [h.encode_eq, h'.encode_eq, List.cons_append] at heq
  have htail := (List.cons.inj heq).2
  exact reads_answer.extended ⟨h, rfl⟩ ⟨h', htail⟩

/-! ## §8. The contract -/

/-- What two processes rely on for one kind of message. -/
structure WireContract {α : Type} (valid : α → Prop) (encode : α → Bytes)
    (decode : Bytes → Except WireError α) : Prop where
  /-- Accepted is exactly encoded and valid. -/
  accepted : ∀ bytes a, decode bytes = .ok a ↔ valid a ∧ bytes = encode a
  /-- Every message fits. -/
  fits : ∀ a, valid a → (encode a).length ≤ maxMessage
  /-- Nothing longer is accepted. -/
  extended : ∀ a rest, valid a → rest ≠ [] → ∃ e, decode (encode a ++ rest) = .error e
  /-- Nothing shorter is accepted. -/
  truncated : ∀ a count, valid a → count < (encode a).length →
    ∃ e, decode ((encode a).take count) = .error e

/-- The two last parts follow from the first when no encoding begins another. -/
theorem WireContract.of_exact {α : Type} {valid : α → Prop} {encode : α → Bytes}
    {decode : Bytes → Except WireError α}
    (hexact : ∀ bytes a, decode bytes = .ok a ↔ valid a ∧ bytes = encode a)
    (hfits : ∀ a, valid a → (encode a).length ≤ maxMessage)
    (hfree : ∀ a a' rest, valid a → valid a' → encode a ++ rest = encode a' → rest = []) :
    WireContract valid encode decode := by
  refine ⟨hexact, hfits, ?_, ?_⟩
  · intro a rest hvalid hrest
    cases hdecode : decode (encode a ++ rest) with
    | error e => exact ⟨e, rfl⟩
    | ok a' =>
      obtain ⟨hvalid', heq⟩ := (hexact _ _).mp hdecode
      exact absurd (hfree a a' rest hvalid hvalid' heq) hrest
  · intro a count hvalid hcount
    cases hdecode : decode ((encode a).take count) with
    | error e => exact ⟨e, rfl⟩
    | ok a' =>
      obtain ⟨hvalid', heq⟩ := (hexact _ _).mp hdecode
      have hnil := hfree a' a ((encode a).drop count) hvalid' hvalid
        (by rw [← heq, List.take_append_drop])
      rw [List.drop_eq_nil_iff] at hnil
      omega

/-- **The pipe's codec is a bijection on valid messages.**  An identifier is short: its
    hexadecimal form names a file and a key. -/
theorem wire_bijection (pairIdLen : Nat) (hid : pairIdLen ≤ 255) :
    WireContract (@SignRequest.Checked pairIdLen) SignRequest.encode
      SignRequest.decode ∧
    WireContract SignAnswer.Valid SignAnswer.encode SignAnswer.decode := by
  constructor
  · refine .of_exact (fun _ _ => request_decode_iff hid) ?_ ?_
    · intro r h
      have hle := h.length_le
      unfold maxMessage
      omega
    · intro r r' rest h h' heq
      exact request_extended h h' heq
  · refine .of_exact (fun _ _ => answer_decode_iff) ?_ ?_
    · intro answer h
      have hle := h.length_le
      unfold maxSignature at hle
      unfold maxMessage
      omega
    · intro answer answer' rest h h' heq
      exact answer_extended h h' heq

/-- The contract for identifiers of sixteen bytes. -/
theorem wire_bijection_sixteen :
    WireContract (@SignRequest.Checked 16) SignRequest.encode SignRequest.decode ∧
    WireContract SignAnswer.Valid SignAnswer.encode SignAnswer.decode :=
  wire_bijection 16 (by decide)

end RefineId.AgentPipe
