/-
  RefineId.Pace — the handshake that opens the contactless interface.
  ════════════════════════════════════════════════════════════════════════════

  `crates/refineid-lib-core/src/pace.rs` and `pace/commands.rs`: with the access number
  printed on the card, `run_pace_with_can` announces the protocol, fetches an encrypted
  nonce, maps the generator of brainpoolP384r1 to one of the session, agrees on a point over
  it, and exchanges authentication tokens under a key derived from that point.

  The card is an arbitrary function of the history of the handshake, and so is the generator
  of random numbers.  A handshake is a `Lib.Flow` over the events of both.  Beside the driver
  stands the protocol as a machine: its phases, the one command each phase allows, and where
  an answer or a drawn number leads.

  Main results:
    • `accessNumber_iff`         : which texts are access numbers.
    • `after_done`               : the ways of the machine to its last phase.
    • `runPaceWithCan_refines`   : every run of the driver is a run of the machine, cut at the
                                   first event the machine has no way on from.
    • `session_authenticated`    : the five exchanges behind a session.
-/
import RefineId.Lib.Flow
import RefineId.Oid
import RefineId.BerRoundTrip
import RefineId.BrainpoolOrder
import RefineId.SecureMessaging

namespace RefineId

namespace Pace

open Ber Lib Brainpool SecureMessaging

/-- Points of brainpoolP384r1. -/
abbrev Point := Brainpool.AffinePoint

/-! ## §1. The access number -/

/-- `CanError`. -/
inductive CanError where
  | empty
  | wrongLength
  | nonDigit
  | allZeros
  deriving Repr, DecidableEq

/-- `u8::is_ascii_digit`. -/
def isDigitOctet (b : UInt8) : Bool := 48 ≤ b && b ≤ 57

/-- `Can`: six ASCII digits, not all zero. -/
structure Can where
  bytes : Bytes
  length_bytes : bytes.length = 6
  digits : bytes.all isDigitOctet = true
  notZeros : bytes.all (· = 48) = false
  deriving DecidableEq

/-- `Can::new`. -/
def Can.new (text : Bytes) : Except CanError Can :=
  if text = [] then .error .empty
  else if hlen : text.length ≠ 6 then .error .wrongLength
  else if hdigits : text.all isDigitOctet = false then .error .nonDigit
  else if hzeros : text.all (· = 48) = true then .error .allZeros
  else .ok ⟨text, by omega, by simpa using hdigits, by simpa using hzeros⟩

/-- **The texts that are access numbers.** -/
theorem accessNumber_iff (text : Bytes) :
    (∃ can, Can.new text = .ok can ∧ can.bytes = text) ↔
      text.length = 6 ∧ text.all isDigitOctet = true ∧ text.all (· = 48) = false := by
  unfold Can.new
  constructor
  · intro h
    obtain ⟨can, -, rfl⟩ := h
    exact ⟨can.length_bytes, can.digits, can.notZeros⟩
  · intro h
    obtain ⟨hlen, hdigits, hzeros⟩ := h
    have hne : text ≠ [] := by
      intro hnil
      rw [hnil] at hlen
      exact absurd hlen (by decide)
    rw [if_neg hne, dif_neg (by omega), dif_neg (by simp [hdigits]), dif_neg (by simp [hzeros])]
    exact ⟨_, rfl, rfl⟩

/-! ## §2. Keys and ciphers -/

/-- `KdfParam`. -/
inductive KdfParam where
  | encryption
  | mac
  | password
  deriving Repr, DecidableEq

/-- `u8::from(KdfParam)`. -/
def KdfParam.asU8 : KdfParam → UInt8
  | .encryption => 1
  | .mac => 2
  | .password => 3

/-- **What the `sha2`, `aes`, `cbc` and `cmac` crates compute.**  A digest has the length of
    a key. -/
structure Crypto extends Aes where
  sha256 : Bytes → Aes256Key

/-- The ciphers with these values and a hash with these digests; elsewhere a digest is zero. -/
def Crypto.ofValues (values : AesValues) (digests : List (Bytes × Aes256Key)) : Crypto where
  toAes := .ofValues values
  sha256 data := (digests.lookup data).getD ⟨List.replicate 32 0, List.length_replicate⟩

/-- `PaceSession`. -/
structure PaceSession where
  kEnc : Aes256Key
  kMac : Aes256Key
  ssc : Ssc
  deriving DecidableEq

/-- `kdf_aes256`: the counter follows as four octets. -/
def kdfAes256 (crypto : Crypto) (k : Bytes) (c : KdfParam) : Aes256Key :=
  crypto.sha256 (k ++ [0, 0, 0, c.asU8])

/-! ## §3. Commands -/

/-- `PACE_MECHANISM_OID`: id-PACE-ECDH-GM-AES-CBC-CMAC-256. -/
def paceMechanismOid : Bytes := Oid.dotted [0, 4, 0, 127, 0, 7, 2, 2, 4, 2, 4]

/-- `PASSWORD_REF_CAN`. -/
def passwordRefCan : UInt8 := 0x02

/-- `DOMAIN_REF_BRAINPOOL_P384_R1`: the number the cards use. -/
def domainRefBrainpoolP384R1 : UInt8 := 0x10

/-- `ZERO_IV`. -/
def zeroIv : Block := ⟨List.replicate 16 0, List.length_replicate⟩

/-- `NONCE_LEN`. -/
def nonceLen : Nat := 16

/-- `GeneralAuthenticate`. -/
structure GeneralAuthenticate where
  chain : Bool
  payload : Bytes
  deriving Repr, DecidableEq

/-- `GeneralAuthenticate::into_apdu`.  It asserts that the payload has at most 255 octets, which
    the driver's payloads of at most 103 have. -/
def GeneralAuthenticate.intoApdu (command : GeneralAuthenticate) : Bytes :=
  [if command.chain then 0x10 else 0x00, 0x86, 0x00, 0x00] ++
    UInt8.ofNat command.payload.length :: command.payload ++ [0x00]

/-- `MseSetAt`. -/
structure MseSetAt where
  data : Bytes
  deriving Repr, DecidableEq

/-- `MseSetAt::into_apdu`, under the same assertion. -/
def MseSetAt.intoApdu (command : MseSetAt) : Bytes :=
  [0x00, 0x22, 0xC1, 0xA4] ++ UInt8.ofNat command.data.length :: command.data

/-- `PaceHelpers::wrap_general_authenticate`. -/
def wrapGeneralAuthenticate (chain : Bool) (payload : Bytes) : Bytes :=
  GeneralAuthenticate.intoApdu ⟨chain, payload⟩

/-- An object in the envelope of dynamic authentication data. -/
def dynamicAuth (tag : UInt8) (value : Bytes) : Bytes := dataObject 0x7C (dataObject tag value)

/-- The command of step 1. -/
def setAtCommand (passwordRef : UInt8) : Bytes :=
  MseSetAt.intoApdu ⟨dataObject 0x80 paceMechanismOid ++ dataObject 0x83 [passwordRef] ++
    dataObject 0x84 [domainRefBrainpoolP384R1]⟩

/-- The command of step 2: an empty envelope. -/
def nonceCommand : Bytes := wrapGeneralAuthenticate true (dataObject 0x7C [])

/-- The command of step 3. -/
def mapCommand (point : Bytes) : Bytes := wrapGeneralAuthenticate true (dynamicAuth 0x81 point)

/-- The command of step 4. -/
def agreeCommand (point : Bytes) : Bytes := wrapGeneralAuthenticate true (dynamicAuth 0x83 point)

/-- The command of step 5, which ends the chain. -/
def tokenCommand (token : Bytes) : Bytes := wrapGeneralAuthenticate false (dynamicAuth 0x85 token)

/-- `ber::tlv2` at the sizes used here. -/
def dataObject2 (tag : UInt16) (value : Bytes) : Bytes :=
  (({} : BerEncoder).pushTlvTag2 tag value).elim [] BerEncoder.out

/-- `PaceHelpers::encode_auth_token`: identifier and point under the template of a public
    key; nothing for the point at infinity. -/
def encodeAuthToken (point : Point) : Option Bytes :=
  point.encodeUncompressed.map fun octets =>
    dataObject2 0x7F49 (dataObject 0x06 paceMechanismOid ++ dataObject 0x86 octets)

example : setAtCommand passwordRefCan =
    [0x00, 0x22, 0xC1, 0xA4, 0x12, 0x80, 0x0A, 0x04, 0x00, 0x7F, 0x00, 0x07, 0x02, 0x02, 0x04,
      0x02, 0x04, 0x83, 0x01, 0x02, 0x84, 0x01, 0x10] := by decide

example : nonceCommand = [0x10, 0x86, 0x00, 0x00, 0x02, 0x7C, 0x00, 0x00] := by decide

/-! ## §4. Answers, errors and events -/

/-- `TransportDispatchError`. -/
inductive TransportDispatchError (E : Type) where
  | error (e : E)
  | outcome (outcome : TransportOutcome)
  deriving Repr, DecidableEq

/-- `PaceError`. -/
inductive PaceError (E : Type) where
  | transport (e : TransportDispatchError E)
  | ber (e : BerError)
  | sw (stage : String) (sw : Nat)
  | unexpectedResponse (what : String)
  | invalidPoint
  | authMismatch
  | random
  deriving Repr, DecidableEq

/-- How a handshake ends without a session: with an error, or, for as long as it was watched,
    not at all, since every number drawn was out of range. -/
inductive Stop (E : Type) where
  | failed (e : PaceError E)
  | drawing
  deriving Repr, DecidableEq

/-- What a handshake does: it draws a number, or it sends a command and has an answer. -/
inductive Event (E : Type) where
  | drew (candidate : Option U384)
  | sent (apdu : Bytes) (answer : Except (TransportDispatchError E) ResponseApdu)

/-- The card and the generator, each free to look back on everything. -/
structure World (E : Type) where
  transmitOutcome : List (Event E) → Bytes → Except E TransportOutcome
  fill : List (Event E) → Option U384

abbrev Handshake (E : Type) := Flow (Event E) (Stop E)

section
variable {E : Type}

/-- `CardTransport::transmit`: outcomes that are no response are errors. -/
def responseOf : Except E TransportOutcome → Except (TransportDispatchError E) ResponseApdu
  | .error e => .error (.error e)
  | .ok (.response r) => .ok r
  | .ok outcome => .error (.outcome outcome)

/-- End a handshake with an error of the driver. -/
def failWith {α : Type} (e : PaceError E) : Handshake E α := Flow.throw (.failed e)

/-- `?` on a result of the driver. -/
def liftPace {α : Type} (r : Except (PaceError E) α) : Handshake E α :=
  Flow.lift (r.mapError .failed)

/-- The object of a tag in the envelope of an answer. -/
def dynamicAuthObject (tag : Nat) (body : Bytes) : Except (PaceError E) Bytes := do
  let outer ← (parseExpect 0x7C body).mapError .ber
  let inner ← (parseExpect tag outer.value).mapError .ber
  return inner.value

/-- The point in an answer. -/
def answeredPoint (tag : Nat) (body : Bytes) : Except (PaceError E) Point := do
  let octets ← dynamicAuthObject tag body
  okOr .invalidPoint (AffinePoint.decodeUncompressed octets)

/-! ## §5. The driver -/

section
variable (world : World E) (turns : Nat)

/-- Transmit one command. -/
def transmit (apdu : Bytes) : Handshake E ResponseApdu := fun h =>
  let answer := responseOf (world.transmitOutcome h apdu)
  (answer.mapError fun e => .failed (.transport e), .sent apdu answer :: h)

/-- Transmit the command of a stage and go on with the body of a success. -/
def command (stage : String) (apdu : Bytes) : Handshake E Bytes := do
  let r ← transmit world apdu
  if r.isOk then return r.body else failWith (.sw stage r.sw)

/-- `cand != zero && cand < n`. -/
def inRange (candidate : U384) : Bool := candidate ≠ 0 && candidate < n

/-- `random_scalar_mod_n`, watched for some turns of its loop. -/
def randomScalarModN : Nat → Handshake E U384
  | 0 => Flow.throw .drawing
  | turns + 1 => fun h =>
    match world.fill h with
    | none => (.error (.failed .random), .drew none :: h)
    | some candidate =>
      if inRange candidate then (.ok candidate, .drew (some candidate) :: h)
      else randomScalarModN turns (.drew (some candidate) :: h)

/-- `set_authentication_template`. -/
def setAuthenticationTemplate (passwordRef : UInt8) : Handshake E Unit := do
  let _ ← command world "MSE:Set AT" (setAtCommand passwordRef)
  return ()

end

/-- `PaceHelpers::scalar_from_nonce`. -/
def scalarFromNonce (s : Bytes) : U384 := AffinePoint.fromBeSlice (List.replicate 32 0 ++ s)

section
variable (crypto : Crypto)

/-- The nonce in the answer of step 2. -/
def decryptedNonce (can : Can) (body : Bytes) : Except (PaceError E) Bytes := do
  let z ← dynamicAuthObject 0x80 body
  ensure (z.length = nonceLen) (.unexpectedResponse "encrypted nonce wrong length")
  let kPi := kdfAes256 crypto can.bytes .password
  let plain ← okOr (.unexpectedResponse "encrypted nonce not block-aligned")
    (aes256CbcDecryptNoPadding crypto.toAes kPi zeroIv z)
  ensure (plain.length = nonceLen) (.unexpectedResponse "decrypted nonce wrong length")
  return plain

/-- The generator of the session: `s*G + H`. -/
def mappedGenerator (s : Bytes) (xPcd : U384) (yPicc : Point) : Point :=
  (AffinePoint.generator.scalarMul (scalarFromNonce s)).add (yPicc.scalarMul xPcd)

/-- `PaceMidwayState`. -/
structure PaceMidwayState where
  mappedG : Point
  vPicc : Point
  uPcd : U384
  uPcdPub : Point
  deriving DecidableEq

/-- The session keys, from the abscissa of the shared point. -/
def sessionOf (kX : U384) : PaceSession :=
  ⟨kdfAes256 crypto (octets 48 kX.toNat) .encryption, kdfAes256 crypto (octets 48 kX.toNat) .mac,
    .initial⟩

/-- What step 5 derives before its command: the session, and the token over the card's point. -/
structure Derived where
  session : PaceSession
  tPcd : Bytes

/-- The session of our scalar and the card's point, and the token over that point.  Both need
    their point to be finite. -/
def derived (uPcd : U384) (vPicc : Point) : Option Derived := do
  let (kX, _) ← (vPicc.scalarMul uPcd).coords
  let tokenForCard ← encodeAuthToken vPicc
  let session := sessionOf crypto kX
  return ⟨session, aes256CmacTruncated crypto.toAes session.kMac tokenForCard⟩

/-- What step 5 does with the answer: the card's token is the one over our own point. -/
def finishedSession (session : PaceSession) (uPcdPub : Point) (body : Bytes) :
    Except (PaceError E) PaceSession := do
  let cardTag ← dynamicAuthObject 0x86 body
  ensure (cardTag.length = 8) (.unexpectedResponse "card auth tag wrong length")
  let tokenForUs ← okOr .invalidPoint (encodeAuthToken uPcdPub)
  ensure (aes256CmacTruncated crypto.toAes session.kMac tokenForUs = cardTag) .authMismatch
  return session

variable (world : World E) (turns : Nat)

/-- `get_encrypted_nonce`. -/
def getEncryptedNonce (can : Can) : Handshake E Bytes := do
  let body ← command world "GA-1 encrypted nonce" nonceCommand
  liftPace (decryptedNonce crypto can body)

/-- Send our point and read the card's, in step 3 and in step 4. -/
def exchangePoint (stage : String) (ours : Point) (wrap : Bytes → Bytes) (tag : Nat) :
    Handshake E Point := do
  let octets ← liftPace (okOr .invalidPoint ours.encodeUncompressed)
  let body ← command world stage (wrap octets)
  liftPace (answeredPoint tag body)

/-- `map_nonce_and_key_agreement`. -/
def mapNonceAndKeyAgreement (s : Bytes) : Handshake E PaceMidwayState := do
  let xPcd ← randomScalarModN world turns
  let xPcdPub := AffinePoint.generator.scalarMul xPcd
  let yPicc ← exchangePoint world "GA-2 map nonce" xPcdPub mapCommand 0x82
  let mappedG := mappedGenerator s xPcd yPicc
  let uPcd ← randomScalarModN world turns
  let uPcdPub := mappedG.scalarMul uPcd
  let vPicc ← exchangePoint world "GA-3 key agreement" uPcdPub agreeCommand 0x84
  return ⟨mappedG, vPicc, uPcd, uPcdPub⟩

/-- `run_pace_with_can_through_step_4`. -/
def runPaceWithCanThroughStep4 (can : Can) : Handshake E PaceMidwayState := do
  setAuthenticationTemplate world passwordRefCan
  let s ← getEncryptedNonce crypto world can
  mapNonceAndKeyAgreement world turns s

/-- `run_pace_step_5`. -/
def runPaceStep5 (state : PaceMidwayState) : Handshake E PaceSession := do
  let keys ← liftPace (okOr .invalidPoint (derived crypto state.uPcd state.vPicc))
  let body ← command world "GA-4 mutual auth" (tokenCommand keys.tPcd)
  liftPace (finishedSession crypto keys.session state.uPcdPub body)

/-- `run_pace_with_can`. -/
def runPaceWithCan (can : Can) : Handshake E PaceSession := do
  let state ← runPaceWithCanThroughStep4 crypto world turns can
  runPaceStep5 crypto world state

end

end

/-! ## §6. The protocol -/

/-- The phases of the protocol, each with what the rest of it needs. -/
inductive Phase where
  | start
  | selected
  | challenged (s : Bytes)
  | mapping (s : Bytes) (x : U384)
  | mapped (g : Point)
  | agreeing (g : Point) (u : U384)
  | agreed (g : Point) (u : U384) (v : Point)
  | done (session : PaceSession)

namespace Phase

section
variable (crypto : Crypto)

/-- The one command a phase allows. -/
def command : Phase → Option Bytes
  | .start => some (setAtCommand passwordRefCan)
  | .selected => some nonceCommand
  | .mapping _ x => (AffinePoint.generator.scalarMul x).encodeUncompressed.map mapCommand
  | .agreeing g u => (g.scalarMul u).encodeUncompressed.map agreeCommand
  | .agreed _ u v => (derived crypto u v).map fun keys => tokenCommand keys.tPcd
  | _ => none

variable (E : Type) (can : Can)

/-- Where the body of a success leads. -/
def answered (p : Phase) (body : Bytes) : Option Phase :=
  match p with
  | .start => some .selected
  | .selected =>
    (decryptedNonce crypto can body : Except (PaceError E) Bytes).toOption.map .challenged
  | .mapping s x =>
    (answeredPoint 0x82 body : Except (PaceError E) Point).toOption.map fun y =>
      .mapped (mappedGenerator s x y)
  | .agreeing g u =>
    (answeredPoint 0x84 body : Except (PaceError E) Point).toOption.map (.agreed g u)
  | .agreed g u v => (derived crypto u v).bind fun keys =>
    (finishedSession crypto keys.session (g.scalarMul u) body :
      Except (PaceError E) PaceSession).toOption.map .done
  | _ => none

/-- Where a drawn number leads: one out of range leaves the phase. -/
def drawn (p : Phase) (candidate : U384) : Option Phase :=
  match p with
  | .challenged s => some (if inRange candidate then .mapping s candidate else p)
  | .mapped g => some (if inRange candidate then .agreeing g candidate else p)
  | _ => none

variable {E}

/-- Where an event leads. -/
def next (p : Phase) : Event E → Option Phase
  | .drew none => none
  | .drew (some candidate) => p.drawn candidate
  | .sent _ (.error _) => none
  | .sent apdu (.ok r) =>
    if p.command crypto = some apdu ∧ r.isOk then p.answered crypto E can r.body else none

/-- The phase after a history, newest event first. -/
def after : List (Event E) → Option Phase
  | [] => some .start
  | e :: h => (after h).bind fun p => p.next crypto can e

/-- The phases in which a number is drawn. -/
def draws : Phase → Bool
  | .challenged _ | .mapped _ => true
  | _ => false

/-- A phase before the last that has nothing to send: a point of ours is infinity. -/
def Stuck (p : Phase) : Prop :=
  p.command crypto = none ∧ p.draws = false ∧ ∀ session, p ≠ .done session

/-- The protocol stopped short of its last phase, with an error: while drawing, or because no
    random number was had, or a point of ours was infinity, or by an answer to the command of a
    phase that leads nowhere. -/
inductive Stopped : Stop E → List (Event E) → Prop
  | drawing {p : Phase} {h : List (Event E)} : after crypto can h = some p → p.draws = true →
      Stopped .drawing h
  | random {p : Phase} {h : List (Event E)} : after crypto can h = some p → p.draws = true →
      Stopped (.failed .random) (.drew none :: h)
  | stuck {p : Phase} {h : List (Event E)} : after crypto can h = some p → p.Stuck crypto →
      Stopped (.failed .invalidPoint) h
  | refused {p : Phase} {h : List (Event E)} {apdu : Bytes}
      {answer : Except (TransportDispatchError E) ResponseApdu} {e : PaceError E} :
      after crypto can h = some p → p.command crypto = some apdu →
      p.next crypto can (Event.sent apdu answer) = none →
      Stopped (.failed e) (.sent apdu answer :: h)

end

end Phase

/-! ## §7. The driver keeps to the protocol -/

section
variable {E : Type} {crypto : Crypto} {can : Can} {world : World E}

open Phase

variable (crypto can) in
/-- The history is one of a run of the protocol that stands at a phase. -/
def At (p : Phase) (h : List (Event E)) : Prop := after crypto can h = some p

variable (crypto can) in
/-- How a part of the driver may leave the protocol: at the phase its value says, or stopped. -/
def EndsAt {α : Type} (phase : α → Phase) (r : Except (Stop E) α) (h : List (Event E)) : Prop :=
  match r with
  | .ok a => At crypto can (phase a) h
  | .error e => Stopped crypto can e h

variable (crypto can) in
/-- A phase that had its command answered with a success: nothing was made of the body yet. -/
def Answered (p : Phase) (body : Bytes) (h : List (Event E)) : Prop :=
  ∃ h' apdu r, At crypto can p h' ∧ p.command crypto = some apdu ∧ r.isOk = true ∧ r.body = body ∧
    h = .sent apdu (.ok r) :: h'

variable (crypto can) in
/-- How the command of a phase may leave it. -/
def SentFrom (p : Phase) (r : Except (Stop E) Bytes) (h : List (Event E)) : Prop :=
  match r with
  | .ok body => Answered crypto can p body h
  | .error e => Stopped crypto can e h

/-- **The command of a phase**: either it is answered with a success, or the protocol stops. -/
theorem triple_command {p : Phase} {apdu : Bytes} (stage : String)
    (hcommand : p.command crypto = some apdu) :
    Triple (At crypto can p) (command world stage apdu) (SentFrom crypto can p) := by
  -- the answer first, then its status
  refine Triple.bind (fun r h => ∃ h', At crypto can p h' ∧ h = .sent apdu (.ok r) :: h') ?_ ?_
  · intro h hat
    unfold transmit
    cases responseOf (world.transmitOutcome h apdu) with
    | error e => exact .refused hat hcommand rfl
    | ok r => exact ⟨h, hat, rfl⟩
  · rintro r _ ⟨h', hat, rfl⟩
    by_cases hok : r.isOk = true
    · simp only [hok, if_true]
      exact ⟨h', apdu, r, hat, hcommand, hok, rfl, rfl⟩
    · simp only [hok]
      refine Stopped.refused hat hcommand ?_
      simp [next, hok]

/-- **What is made of a body**: it leads to the next phase exactly when it is accepted. -/
theorem triple_answered {α : Type} {p : Phase} {body : Bytes} {phase : α → Phase}
    {r : Except (PaceError E) α}
    (hanswered : p.answered crypto E can body = r.toOption.map phase) :
    Triple (Answered crypto can p body) (liftPace r : Handshake E α)
      (EndsAt crypto can phase) := by
  apply Triple.lift
  rintro _ ⟨h', apdu, answer, hat, hcommand, hok, rfl, rfl⟩
  have hnext : p.next crypto can (Event.sent apdu (.ok answer) : Event E) =
      r.toOption.map phase := by
    rw [← hanswered]
    simp [next, hcommand, hok]
  cases r with
  | ok a =>
    show after crypto can (.sent apdu (.ok answer) :: h') = some (phase a)
    rw [after, show after crypto can h' = some p from hat, Option.bind_some, hnext]
    rfl
  | error e => exact .refused hat hcommand hnext

theorem randomScalarModN_succ (turns : Nat) (h : List (Event E)) :
    randomScalarModN world (turns + 1) h = match world.fill h with
      | none => (.error (.failed .random), .drew none :: h)
      | some candidate =>
        if inRange candidate then (.ok candidate, .drew (some candidate) :: h)
        else randomScalarModN world turns (.drew (some candidate) :: h) := rfl

/-- **The loop that draws a number** stays in its phase until one is in range. -/
theorem triple_draw {p : Phase} {phase : U384 → Phase} (hdraws : p.draws = true)
    (hdrawn : ∀ k, p.drawn k = some (if inRange k then phase k else p)) (turns : Nat) :
    Triple (At crypto can p) (randomScalarModN world turns)
      (EndsAt crypto can phase) := by
  induction turns with
  | zero =>
    apply Triple.throw
    intro h hat
    exact .drawing hat hdraws
  | succ turns ih =>
    intro h hat
    have hafter : ∀ k, after crypto can (.drew (some k) :: h) =
        some (if inRange k then phase k else p) := by
      intro k
      rw [after, show after crypto can h = some p from hat, Option.bind_some]
      exact hdrawn k
    rw [randomScalarModN_succ]
    cases world.fill h with
    | none => exact .random hat hdraws
    | some k =>
      by_cases hk : inRange k = true
      · simp only [hk, if_true]
        show after crypto can (.drew (some k) :: h) = some (phase k)
        rw [hafter, if_pos hk]
      · simp only [hk]
        apply ih
        show after crypto can (.drew (some k) :: h) = some p
        rw [hafter, if_neg hk]

/-- Between two parts of the driver. -/
theorem EndsAt.bind {α β : Type} {pre : List (Event E) → Prop} {m : Handshake E α}
    {f : α → Handshake E β} {phase : α → Phase} {phase' : β → Phase}
    (hm : Triple pre m (EndsAt crypto can phase))
    (hf : ∀ a, Triple (At crypto can (phase a)) (f a) (EndsAt crypto can phase')) :
    Triple pre (m >>= f) (EndsAt crypto can phase') := by
  refine Triple.bind (fun a => At crypto can (phase a)) (hm.weaken (fun _ h => h) ?_) hf
  intro r h hr
  cases r <;> exact hr

/-- A point of ours, a command over it and what is made of the answer. -/
theorem triple_exchange {α β : Type} {p : Phase} {ours : Option α} {apdu : α → Bytes}
    {parse : α → Bytes → Except (PaceError E) β} {phase : β → Phase} (stage : String)
    (hp : p.draws = false ∧ ∀ session, p ≠ .done session)
    (hcommand : p.command crypto = ours.map apdu)
    (hanswered : ∀ a, ours = some a → ∀ body,
      p.answered crypto E can body = (parse a body).toOption.map phase) :
    Triple (At crypto can p)
      (do let a ← (liftPace (okOr .invalidPoint ours) : Handshake E α)
          let body ← command world stage (apdu a)
          liftPace (parse a body))
      (EndsAt crypto can phase) := by
  refine Triple.bind (fun a h => ours = some a ∧ At crypto can p h) ?_ ?_
  · apply Triple.lift
    intro h hat
    cases ours with
    | none => exact .stuck hat ⟨hcommand, hp⟩
    | some a => exact ⟨rfl, hat⟩
  · rintro a h ⟨rfl, hat⟩
    have hrest : Triple (At crypto can p)
        (do let body ← command world stage (apdu a)
            liftPace (parse a body)) (EndsAt crypto can phase) := by
      refine Triple.bind (Answered crypto can p) ?_ fun body =>
        triple_answered (hanswered a rfl body)
      refine (triple_command stage hcommand).weaken (fun _ h => h) fun r h hr => ?_
      cases r <;> exact hr
    exact hrest h hat

theorem triple_setAuthenticationTemplate :
    Triple (At crypto can .start) (setAuthenticationTemplate world passwordRefCan)
      (EndsAt crypto can fun _ => .selected) := by
  have hcommand : Phase.start.command crypto = some (setAtCommand passwordRefCan) := rfl
  refine Triple.bind (Answered crypto can .start) ?_ fun body => ?_
  · refine (triple_command _ hcommand).weaken (fun _ h => h) fun r h hr => ?_
    cases r <;> exact hr
  · have hanswered : Phase.start.answered crypto E can body =
        (.ok () : Except (PaceError E) Unit).toOption.map fun _ => .selected := rfl
    exact triple_answered hanswered

theorem triple_getEncryptedNonce :
    Triple (At crypto can .selected) (getEncryptedNonce crypto world can)
      (EndsAt crypto can .challenged) := by
  have hcommand : Phase.selected.command crypto = some nonceCommand := rfl
  refine Triple.bind (Answered crypto can .selected) ?_ fun body => triple_answered rfl
  refine (triple_command _ hcommand).weaken (fun _ h => h) fun r h hr => ?_
  cases r <;> exact hr

theorem triple_mapNonceAndKeyAgreement (turns : Nat) (s : Bytes) :
    Triple (At crypto can (.challenged s)) (mapNonceAndKeyAgreement world turns s)
      (EndsAt crypto can fun state => .agreed state.mappedG state.uPcd state.vPicc) := by
  refine EndsAt.bind (triple_draw rfl (fun _ => rfl) turns) fun x => ?_
  refine EndsAt.bind (triple_exchange _ ⟨rfl, by simp⟩ rfl fun _ _ _ => rfl) fun y => ?_
  refine EndsAt.bind (triple_draw rfl (fun _ => rfl) turns) fun u => ?_
  refine EndsAt.bind (triple_exchange _ ⟨rfl, by simp⟩ rfl fun _ _ _ => rfl) fun v => ?_
  exact Triple.pure fun _ hat => hat

/-- What step 4 leaves: the public point is the multiple of the mapped generator. -/
theorem mapNonceAndKeyAgreement_public (turns : Nat) (s : Bytes) :
    Triple (fun _ => True) (mapNonceAndKeyAgreement world turns s) fun r _ =>
      ∀ state, r = .ok state → state.uPcdPub = state.mappedG.scalarMul state.uPcd := by
  refine Triple.skip (fun _ _ state h => by cases h) fun x => ?_
  refine Triple.skip (fun _ _ state h => by cases h) fun y => ?_
  refine Triple.skip (fun _ _ state h => by cases h) fun u => ?_
  refine Triple.skip (fun _ _ state h => by cases h) fun v => ?_
  apply Triple.pure
  intro _ _ state hstate
  injection hstate with hstate
  rw [← hstate]

theorem command_agreed (crypto : Crypto) (g : Point) (u : U384) (v : Point) :
    (Phase.agreed g u v).command crypto =
      (derived crypto u v).map fun keys => tokenCommand keys.tPcd := rfl

theorem answered_agreed (crypto : Crypto) (can : Can) (g : Point) (u : U384) (v : Point)
    (body : Bytes) : (Phase.agreed g u v).answered crypto E can body =
      (derived crypto u v).bind fun keys =>
        (finishedSession crypto keys.session (g.scalarMul u) body :
          Except (PaceError E) PaceSession).toOption.map .done := rfl

theorem triple_runPaceStep5 {state : PaceMidwayState}
    (hpublic : state.uPcdPub = state.mappedG.scalarMul state.uPcd) :
    Triple (At crypto can (.agreed state.mappedG state.uPcd state.vPicc))
      (runPaceStep5 crypto world state) (EndsAt crypto can .done) := by
  refine triple_exchange _ ⟨rfl, by simp⟩ (command_agreed _ _ _ _) ?_
  intro keys hkeys body
  rw [answered_agreed, hkeys, hpublic, Option.bind_some]

/-- The whole driver, from the first phase. -/
theorem triple_runPaceWithCan (crypto : Crypto) (can : Can) (world : World E) (turns : Nat) :
    Triple (At crypto can .start) (runPaceWithCan crypto world turns can)
      (EndsAt crypto can .done) := by
  refine Triple.bind (fun state h =>
    At crypto can (.agreed state.mappedG state.uPcd state.vPicc) h ∧
      state.uPcdPub = state.mappedG.scalarMul state.uPcd) ?_ ?_
  · have hphase : Triple (At crypto can .start)
        (runPaceWithCanThroughStep4 crypto world turns can)
        (EndsAt crypto can fun state => .agreed state.mappedG state.uPcd state.vPicc) := by
      refine EndsAt.bind triple_setAuthenticationTemplate fun _ => ?_
      refine EndsAt.bind triple_getEncryptedNonce fun s => ?_
      exact triple_mapNonceAndKeyAgreement turns s
    have hpublic : Triple (fun _ => True) (runPaceWithCanThroughStep4 crypto world turns can)
        fun r _ => ∀ state, r = .ok state →
          state.uPcdPub = state.mappedG.scalarMul state.uPcd := by
      refine Triple.skip (fun _ _ state h => by cases h) fun _ => ?_
      refine Triple.skip (fun _ _ state h => by cases h) fun s => ?_
      exact mapNonceAndKeyAgreement_public turns s
    refine (hphase.and hpublic).weaken (fun _ h => h) fun r h hr => ?_
    cases r with
    | ok state => exact ⟨hr.1, hr.2 state rfl⟩
    | error e => exact hr.1
  · rintro state h ⟨hat, hpublic⟩
    exact triple_runPaceStep5 hpublic h hat

/-- **Every run of the driver is a run of the protocol**: one that ends with a session is at the
    last phase with it, and one that ends with an error stopped at an earlier phase, in the way
    the error says. -/
theorem runPaceWithCan_refines (crypto : Crypto) (can : Can) (world : World E) (turns : Nat) :
    (∀ session, (runPaceWithCan crypto world turns can []).1 = .ok session →
      after crypto can (runPaceWithCan crypto world turns can []).2 = some (.done session)) ∧
    (∀ e, (runPaceWithCan crypto world turns can []).1 = .error e →
      Stopped crypto can e (runPaceWithCan crypto world turns can []).2) := by
  have hend := triple_runPaceWithCan crypto can world turns [] rfl
  constructor
  · intro session hr
    rw [hr] at hend
    exact hend
  · intro e hr
    rw [hr] at hend
    exact hend

end

/-! ## §8. What a session has behind it -/

section
variable {E : Type} {crypto : Crypto} {can : Can}

open Phase

/-- The body of a success. -/
def succeeded : Except (TransportDispatchError E) ResponseApdu → Option Bytes
  | .error _ => none
  | .ok r => if r.isOk then some r.body else none

/-- What was sent, oldest first, each with the body of its success. -/
def exchanges : List (Event E) → List (Bytes × Option Bytes)
  | [] => []
  | .drew _ :: h => exchanges h
  | .sent apdu answer :: h => exchanges h ++ [(apdu, succeeded answer)]

variable (E crypto can) in
/-- How a phase is reached, with the exchanges that led there. -/
inductive Reached : Phase → List (Bytes × Option Bytes) → Prop
  | start : Reached .start []
  | selected {b : Bytes} : Reached .selected [(setAtCommand passwordRefCan, some b)]
  | challenged {log : List (Bytes × Option Bytes)} {s b : Bytes} : Reached .selected log →
      (decryptedNonce crypto can b : Except (PaceError E) Bytes) = .ok s →
      Reached (.challenged s) (log ++ [(nonceCommand, some b)])
  | mapping {log : List (Bytes × Option Bytes)} {s : Bytes} {x : U384} :
      Reached (.challenged s) log → inRange x = true → Reached (.mapping s x) log
  | mapped {log : List (Bytes × Option Bytes)} {s b ours : Bytes} {x : U384} {y : Point} :
      Reached (.mapping s x) log →
      (AffinePoint.generator.scalarMul x).encodeUncompressed = some ours →
      (answeredPoint 0x82 b : Except (PaceError E) Point) = .ok y →
      Reached (.mapped (mappedGenerator s x y)) (log ++ [(mapCommand ours, some b)])
  | agreeing {log : List (Bytes × Option Bytes)} {g : Point} {u : U384} :
      Reached (.mapped g) log → inRange u = true → Reached (.agreeing g u) log
  | agreed {log : List (Bytes × Option Bytes)} {b ours : Bytes} {g v : Point} {u : U384} :
      Reached (.agreeing g u) log → (g.scalarMul u).encodeUncompressed = some ours →
      (answeredPoint 0x84 b : Except (PaceError E) Point) = .ok v →
      Reached (.agreed g u v) (log ++ [(agreeCommand ours, some b)])
  | done {log : List (Bytes × Option Bytes)} {b : Bytes} {g v : Point} {u : U384}
      {keys : Derived} {session : PaceSession} : Reached (.agreed g u v) log →
      derived crypto u v = some keys →
      (finishedSession crypto keys.session (g.scalarMul u) b :
        Except (PaceError E) PaceSession) = .ok session →
      Reached (.done session) (log ++ [(tokenCommand keys.tPcd, some b)])

theorem ok_of_toOption_map {α β ε : Type} {r : Except ε α} {f : α → β} {b : β}
    (h : r.toOption.map f = some b) : ∃ a, r = .ok a ∧ f a = b := by
  cases r with
  | ok a => exact ⟨a, rfl, by simpa [Except.toOption] using h⟩
  | error e => exact absurd h (by simp [Except.toOption])

/-- A drawn number. -/
theorem Reached.drew {p p' : Phase} {log : List (Bytes × Option Bytes)} {k : U384}
    (hp : Reached E crypto can p log) (h : p.drawn k = some p') :
    Reached E crypto can p' log := by
  cases p with
  | challenged s =>
    by_cases hk : inRange k = true
    · simp only [drawn, hk, if_true, Option.some.injEq] at h
      exact h ▸ hp.mapping hk
    · simp only [drawn, hk] at h
      injection h with h
      exact h ▸ hp
  | mapped g =>
    by_cases hk : inRange k = true
    · simp only [drawn, hk, if_true, Option.some.injEq] at h
      exact h ▸ hp.agreeing hk
    · simp only [drawn, hk] at h
      injection h with h
      exact h ▸ hp
  | _ => exact absurd h (by simp [drawn])

/-- A command answered with a success. -/
theorem Reached.answered {p p' : Phase} {log : List (Bytes × Option Bytes)} {apdu body : Bytes}
    (hp : Reached E crypto can p log) (hcommand : p.command crypto = some apdu)
    (h : p.answered crypto E can body = some p') :
    Reached E crypto can p' (log ++ [(apdu, some body)]) := by
  cases p with
  | start =>
    cases hp
    cases hcommand
    cases h
    exact .selected
  | selected =>
    cases hcommand
    obtain ⟨s, hs, rfl⟩ := ok_of_toOption_map h
    exact hp.challenged hs
  | mapping s x =>
    obtain ⟨ours, hours, rfl⟩ := Option.map_eq_some_iff.mp hcommand
    obtain ⟨y, hy, rfl⟩ := ok_of_toOption_map h
    exact hp.mapped hours hy
  | agreeing g u =>
    obtain ⟨ours, hours, rfl⟩ := Option.map_eq_some_iff.mp hcommand
    obtain ⟨v, hv, rfl⟩ := ok_of_toOption_map h
    exact hp.agreed hours hv
  | agreed g u v =>
    obtain ⟨keys, hkeys, rfl⟩ := Option.map_eq_some_iff.mp hcommand
    rw [answered_agreed, hkeys, Option.bind_some] at h
    obtain ⟨session, hsession, rfl⟩ := ok_of_toOption_map h
    exact hp.done hkeys hsession
  | _ => exact absurd hcommand (by simp [Phase.command])

/-- One event. -/
theorem Reached.next {p p' : Phase} {h : List (Event E)} {e : Event E}
    (hp : Reached E crypto can p (exchanges h)) (hnext : p.next crypto can e = some p') :
    Reached E crypto can p' (exchanges (e :: h)) := by
  cases e with
  | drew candidate =>
    cases candidate with
    | none => exact absurd hnext (by simp [Phase.next])
    | some k => exact hp.drew hnext
  | sent apdu answer =>
    cases answer with
    | error e => exact absurd hnext (by simp [Phase.next])
    | ok r =>
      by_cases hok : p.command crypto = some apdu ∧ r.isOk = true
      · rw [Phase.next, if_pos hok] at hnext
        have hlog : exchanges (.sent apdu (.ok r) :: h) = exchanges h ++ [(apdu, some r.body)] := by
          simp [exchanges, succeeded, hok.2]
        rw [hlog]
        exact hp.answered hok.1 hnext
      · rw [Phase.next, if_neg hok] at hnext
        exact absurd hnext (by simp)

/-- **What is behind a phase**: every history at it reached it by its exchanges. -/
theorem reached_of_after {p : Phase} {h : List (Event E)} (hat : after crypto can h = some p) :
    Reached E crypto can p (exchanges h) := by
  induction h generalizing p with
  | nil =>
    injection hat with hat
    exact hat ▸ .start
  | cons e h ih =>
    obtain ⟨q, hq, hnext⟩ := Option.bind_eq_some_iff.mp hat
    exact (ih hq).next hnext

/-- **The last phase**: five commands, each answered with a success, and the card's token. -/
theorem after_done {session : PaceSession} {h : List (Event E)}
    (hat : after crypto can h = some (.done session)) :
    ∃ b1 b2 b3 b4 b5 s x y u v ours3 ours4 keys,
      exchanges h = [(setAtCommand passwordRefCan, some b1), (nonceCommand, some b2),
        (mapCommand ours3, some b3), (agreeCommand ours4, some b4),
        (tokenCommand keys.tPcd, some b5)] ∧
      (decryptedNonce crypto can b2 : Except (PaceError E) Bytes) = .ok s ∧
      inRange x = true ∧
      (AffinePoint.generator.scalarMul x).encodeUncompressed = some ours3 ∧
      (answeredPoint 0x82 b3 : Except (PaceError E) Point) = .ok y ∧
      inRange u = true ∧
      ((mappedGenerator s x y).scalarMul u).encodeUncompressed = some ours4 ∧
      (answeredPoint 0x84 b4 : Except (PaceError E) Point) = .ok v ∧
      derived crypto u v = some keys ∧
      (finishedSession crypto keys.session ((mappedGenerator s x y).scalarMul u) b5 :
        Except (PaceError E) PaceSession) = .ok session := by
  have hreached := reached_of_after hat
  generalize exchanges h = log at hreached
  -- back through the phases, each of which is reached in one way
  cases hreached with
  | done hagreed hkeys hsession =>
  cases hagreed with
  | agreed hagreeing hours4 hv =>
  cases hagreeing with
  | agreeing hmapped hu =>
  cases hmapped with
  | mapped hmapping hours3 hy =>
  cases hmapping with
  | mapping hchallenged hx =>
  cases hchallenged with
  | challenged hselected hs =>
  cases hselected with
  | selected =>
    exact ⟨_, _, _, _, _, _, _, _, _, _, _, _, _, rfl, hs, hx, hours3, hy, hu, hours4, hv, hkeys,
      hsession⟩

/-- How many commands a phase has behind it. -/
def Phase.commands : Phase → Nat
  | .start => 0
  | .selected => 1
  | .challenged _ | .mapping _ _ => 2
  | .mapped _ | .agreeing _ _ => 3
  | .agreed _ _ _ => 4
  | .done _ => 5

theorem Reached.length {p : Phase} {log : List (Bytes × Option Bytes)}
    (h : Reached E crypto can p log) : log.length = p.commands := by
  induction h <;> simp_all [Phase.commands]

theorem length_exchanges_le {p : Phase} {h : List (Event E)}
    (hat : after crypto can h = some p) : (exchanges h).length ≤ 5 := by
  rw [(reached_of_after hat).length]
  cases p <;> simp [Phase.commands]

theorem length_exchanges_of_stopped {e : Stop E} {h : List (Event E)}
    (hstopped : Stopped crypto can e h) : (exchanges h).length ≤ 5 := by
  cases hstopped with
  | drawing hat => exact length_exchanges_le hat
  | @random p h' hat =>
    show (exchanges h').length ≤ 5
    exact length_exchanges_le hat
  | stuck hat => exact length_exchanges_le hat
  | @refused p h' apdu answer e hat hcommand =>
    -- a phase with a command is not the last
    have hle : p.commands ≤ 4 := by
      cases p with
      | done session => exact absurd hcommand (by simp [Phase.command])
      | _ => simp [Phase.commands]
    show (exchanges h' ++ [(apdu, succeeded answer)]).length ≤ 5
    rw [List.length_append, List.length_singleton, (reached_of_after hat).length]
    omega

/-- What step 5 derives. -/
theorem derived_eq_some {crypto : Crypto} {u : U384} {v : Point} {keys : Derived} :
    derived crypto u v = some keys ↔
      ∃ kX kY token, (v.scalarMul u).coords = some (kX, kY) ∧ encodeAuthToken v = some token ∧
        keys = ⟨sessionOf crypto kX,
          aes256CmacTruncated crypto.toAes (sessionOf crypto kX).kMac token⟩ := by
  unfold derived
  constructor
  · intro h
    obtain ⟨⟨kX, kY⟩, hcoords, h⟩ := Option.bind_eq_some_iff.mp h
    obtain ⟨token, htoken, h⟩ := Option.bind_eq_some_iff.mp h
    exact ⟨kX, kY, token, hcoords, htoken, (Option.some.inj h).symm⟩
  · rintro ⟨kX, kY, token, hcoords, htoken, rfl⟩
    rw [hcoords, Option.bind_eq_bind, Option.bind_some]
    show (encodeAuthToken v).bind _ = _
    rw [htoken]
    rfl

/-- What step 5 accepts. -/
theorem finishedSession_eq_ok {crypto : Crypto} {keys session : PaceSession} {ours : Point}
    {body : Bytes} :
    (finishedSession crypto keys ours body : Except (PaceError E) PaceSession) = .ok session ↔
      ∃ token, encodeAuthToken ours = some token ∧
        (dynamicAuthObject 0x86 body : Except (PaceError E) Bytes) =
          .ok (aes256CmacTruncated crypto.toAes keys.kMac token) ∧ session = keys := by
  simp only [finishedSession, bind_eq_ok, ensure_eq_ok, okOr_eq_ok, pure_eq_ok, decide_eq_true_eq]
  constructor
  · rintro ⟨tag, htag, _, -, token, htoken, _, rfl, rfl⟩
    exact ⟨token, htoken, htag, rfl⟩
  · rintro ⟨token, htoken, htag, rfl⟩
    exact ⟨_, htag, (), length_cmacTruncated crypto.toAes _ _, token, htoken, (), rfl, rfl⟩

/-- **What a session stands for.**  Whatever the card answers, a run sends at most five commands;
    one that ends with a session sent exactly these five, each answered with a success, and the
    card's last answer held the code over our point under the key of the session. -/
theorem session_authenticated (crypto : Crypto) (can : Can) (world : World E) (turns : Nat) :
    (exchanges (runPaceWithCan crypto world turns can []).2).length ≤ 5 ∧
    ∀ session, (runPaceWithCan crypto world turns can []).1 = .ok session →
      ∃ b1 b2 b3 b4 b5 s x y u v kX kY ours3 ours4 tokenForCard tokenForUs,
        exchanges (runPaceWithCan crypto world turns can []).2 =
          [(setAtCommand passwordRefCan, some b1), (nonceCommand, some b2),
            (mapCommand ours3, some b3), (agreeCommand ours4, some b4),
            (tokenCommand (aes256CmacTruncated crypto.toAes session.kMac tokenForCard), some b5)] ∧
        (decryptedNonce crypto can b2 : Except (PaceError E) Bytes) = .ok s ∧
        inRange x = true ∧ inRange u = true ∧
        (AffinePoint.generator.scalarMul x).encodeUncompressed = some ours3 ∧
        (answeredPoint 0x82 b3 : Except (PaceError E) Point) = .ok y ∧
        ((mappedGenerator s x y).scalarMul u).encodeUncompressed = some ours4 ∧
        (answeredPoint 0x84 b4 : Except (PaceError E) Point) = .ok v ∧
        (v.scalarMul u).coords = some (kX, kY) ∧ session = sessionOf crypto kX ∧
        encodeAuthToken v = some tokenForCard ∧
        encodeAuthToken ((mappedGenerator s x y).scalarMul u) = some tokenForUs ∧
        (dynamicAuthObject 0x86 b5 : Except (PaceError E) Bytes) =
          .ok (aes256CmacTruncated crypto.toAes session.kMac tokenForUs) := by
  have hend := triple_runPaceWithCan crypto can world turns [] rfl
  generalize runPaceWithCan crypto world turns can [] = run at hend
  obtain ⟨r, h⟩ := run
  cases r with
  | error e => exact ⟨length_exchanges_of_stopped hend, fun session hr => by cases hr⟩
  | ok session =>
    refine ⟨(reached_of_after hend).length.le, ?_⟩
    rintro _ ⟨⟩
    obtain ⟨b1, b2, b3, b4, b5, s, x, y, u, v, ours3, ours4, keys, hlog, hs, hx, hours3, hy, hu,
      hours4, hv, hkeys, hfinished⟩ := after_done hend
    obtain ⟨kX, kY, tokenForCard, hshared, htoken, rfl⟩ := derived_eq_some.mp hkeys
    obtain ⟨tokenForUs, hus, hanswer, rfl⟩ := finishedSession_eq_ok.mp hfinished
    exact ⟨b1, b2, b3, b4, b5, s, x, y, u, v, kX, kY, ours3, ours4, tokenForCard, tokenForUs, hlog,
      hs, hx, hu, hours3, hy, hours4, hv, hshared, rfl, htoken, hus, hanswer⟩

end

end Pace

end RefineId
