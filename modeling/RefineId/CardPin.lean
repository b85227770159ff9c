/-
  RefineId.CardPin — changing, unblocking and activating PINs on a card.
  ════════════════════════════════════════════════════════════════════════════

  `crates/refineid-lib-core/src/auth.rs` (the commands), `pin_retry_risk.rs` (when a
  credential may be presented) and `crates/refineid-card-manager-core/src/card_pin.rs`
  (the three flows).  A wrong PIN or PUK spends a try and the last one blocks the card
  for good, so every flow reads counters and the card's serial before it presents
  anything.

  The card is an arbitrary function of the history of the session: it chooses every
  status word.  A flow is a `Lib.Flow` over the events of the session.
-/
import RefineId.Ber
import RefineId.Lib.Flow

namespace RefineId

namespace CardPin

open Lib

/-! ## §1. References, status words and outcomes -/

inductive PinSlot where
  | pin1
  | pin2
  deriving Repr, DecidableEq

/-- `PinReferenceScheme`: the two reference numberings. -/
inductive PinReferenceScheme where
  | citizen
  | organizational
  deriving Repr, DecidableEq

/-- `CredentialReference`. -/
inductive CredentialReference where
  | pin (scheme : PinReferenceScheme) (slot : PinSlot)
  | puk (scheme : PinReferenceScheme)
  deriving Repr, DecidableEq

/-- `CredentialReference::as_byte`. -/
def CredentialReference.asByte : CredentialReference → UInt8
  | .pin .citizen .pin1 => 0x11
  | .pin .citizen .pin2 => 0x82
  | .pin .organizational .pin1 => 0x03
  | .pin .organizational .pin2 => 0x04
  | .puk .citizen => 0x83
  | .puk .organizational => 0x12

/-- `StatusWord`; the low nibble of 63Cx is the retry count. -/
inductive StatusWord where
  | success
  | pinIncorrect (retries : Nat)
  | authenticationFailed
  | authenticationBlocked
  | referenceDataInvalidated
  | referenceDataNotFound
  | wrongLength
  | other (sw : Nat)
  deriving Repr, DecidableEq

/-- `StatusWord::as_u16`. -/
def StatusWord.asU16 : StatusWord → Nat
  | .success => 0x9000
  | .pinIncorrect retries => 0x63C0 + retries % 16
  | .authenticationFailed => 0x6300
  | .authenticationBlocked => 0x6983
  | .referenceDataInvalidated => 0x6984
  | .referenceDataNotFound => 0x6A88
  | .wrongLength => 0x6700
  | .other sw => sw

/-- `PinStatus`. -/
inductive PinStatus where
  | verified
  | remaining (retries : Nat)
  | noInfo
  | locked
  | other (sw : Nat)
  deriving Repr, DecidableEq

/-- `PukStatus`. -/
inductive PukStatus where
  | remaining (retries : Nat)
  | noInfo
  | locked
  | invalidated
  | other (sw : Nat)
  deriving Repr, DecidableEq

/-- `ChangePinOutcome`. -/
inductive ChangePinOutcome where
  | ok
  | wrongCurrentPin (retriesLeft : Nat)
  | locked
  | lengthError
  | other (sw : Nat)
  deriving Repr, DecidableEq

/-- `UnblockOutcome`. -/
inductive UnblockOutcome where
  | ok
  | wrongPuk (retriesLeft : Nat)
  | pukLocked
  | invalidated
  | lengthError
  | other (sw : Nat)
  deriving Repr, DecidableEq

/-- `classify_pin_status_sw`. -/
def classifyPinStatusSw : StatusWord → PinStatus
  | .success => .verified
  | .pinIncorrect retries => .remaining retries
  | .authenticationFailed => .noInfo
  | .authenticationBlocked => .locked
  | .referenceDataInvalidated => .locked
  | sw => .other sw.asU16

/-- `classify_puk_status_sw`. -/
def classifyPukStatusSw : StatusWord → PukStatus
  | .pinIncorrect retries => .remaining retries
  | .authenticationFailed => .noInfo
  | .authenticationBlocked => .locked
  | .referenceDataInvalidated => .invalidated
  | sw => .other sw.asU16

/-- `classify_change_pin_sw`. -/
def classifyChangePinSw : StatusWord → ChangePinOutcome
  | .success => .ok
  | .pinIncorrect retries => .wrongCurrentPin retries
  | .authenticationBlocked => .locked
  | .referenceDataInvalidated => .locked
  | .wrongLength => .lengthError
  | sw => .other sw.asU16

/-- `classify_reset_retry_sw`. -/
def classifyResetRetrySw : StatusWord → UnblockOutcome
  | .success => .ok
  | .pinIncorrect retries => .wrongPuk retries
  | .authenticationBlocked => .pukLocked
  | .referenceDataInvalidated => .invalidated
  | .wrongLength => .lengthError
  | sw => .other sw.asU16

/-! ## §2. The retry-risk rules -/

/-- `FlooredCredential`. -/
inductive FlooredCredential where
  | pin1
  | pin2
  | puk
  deriving Repr, DecidableEq

/-- `FlooredCredential::from(PinSlot)`. -/
def FlooredCredential.ofSlot : PinSlot → FlooredCredential
  | .pin1 => .pin1
  | .pin2 => .pin2

/-- `RetryFloorRefusal`. -/
inductive RetryFloorRefusal where
  | triesBelowFloor (credential : FlooredCredential) (remaining : Nat)
  | blocked (credential : FlooredCredential)
  | counterUnreadable (credential : FlooredCredential)
  deriving Repr, DecidableEq

/-- `PinRetryRisk`. -/
inductive PinRetryRisk where
  | normalOperatingConditions
  | disturbanceDetected
  | securityIncidentDeclared
  | criticalThreatLevel
  | lockdownImminent
  | defencesFallen
  deriving Repr, DecidableEq

/-- `PinRetryRisk::from_retries`. -/
def PinRetryRisk.fromRetries : Nat → Option PinRetryRisk
  | 5 => some .normalOperatingConditions
  | 4 => some .disturbanceDetected
  | 3 => some .securityIncidentDeclared
  | 2 => some .criticalThreatLevel
  | 1 => some .lockdownImminent
  | 0 => some .defencesFallen
  | _ => none

/-- `PinRetryRisk::is_above_floor`. -/
def PinRetryRisk.isAboveFloor : PinRetryRisk → Bool
  | .normalOperatingConditions | .disturbanceDetected | .securityIncidentDeclared => true
  | _ => false

/-- `PinRetryRisk::spends_a_last_try`. -/
def PinRetryRisk.spendsALastTry : PinRetryRisk → Bool
  | .criticalThreatLevel | .lockdownImminent => true
  | _ => false

/-- `check_retry_floor`.  Only the PUK is served when exhausted or blocked: the card then
    answers for itself and spends nothing. -/
def checkRetryFloor (credential : FlooredCredential) (status : PinStatus) :
    Except RetryFloorRefusal Unit :=
  match status with
  | .verified =>
    if credential = .puk then .error (.counterUnreadable credential) else .ok ()
  | .remaining remaining =>
    match PinRetryRisk.fromRetries remaining with
    | some risk =>
      if risk.isAboveFloor then .ok ()
      else if risk = .defencesFallen ∧ credential = .puk then .ok ()
      else .error (.triesBelowFloor credential remaining)
    | none => .error (.counterUnreadable credential)
  | .locked => if credential = .puk then .ok () else .error (.blocked credential)
  | .noInfo => .error (.counterUnreadable credential)
  | .other _ => .error (.counterUnreadable credential)

/-- `check_puk_retry_floor`. -/
def checkPukRetryFloor (status : PukStatus) : Except RetryFloorRefusal Unit :=
  checkRetryFloor .puk (match status with
    | .remaining retries => .remaining retries
    | .noInfo => .noInfo
    | .locked => .locked
    | .invalidated => .locked
    | .other sw => .other sw)

/-- `check_activation_last_tries`. -/
def checkActivationLastTries (credential : FlooredCredential) (status : PinStatus) :
    Except RetryFloorRefusal Unit :=
  match status with
  | .remaining remaining =>
    match PinRetryRisk.fromRetries remaining with
    | some risk =>
      if risk.spendsALastTry then .error (.triesBelowFloor credential remaining) else .ok ()
    | none => .error (.counterUnreadable credential)
  | .verified => .ok ()
  | .locked => .ok ()
  | .noInfo => .error (.counterUnreadable credential)
  | .other _ => .error (.counterUnreadable credential)

/-! ## §3. PINs, codes and lengths -/

/-- `u8::is_ascii_digit`. -/
def isAsciiDigit (b : UInt8) : Bool := 0x30 ≤ b && b ≤ 0x39

/-- `PinBytes`: four to twelve ASCII digits, by construction. -/
structure PinBytes where
  bytes : Bytes
  length_ge : 4 ≤ bytes.length
  length_le : bytes.length ≤ 12
  digits : bytes.all isAsciiDigit
  deriving DecidableEq

/-- `PinBytes::digit_count`. -/
def PinBytes.digitCount (p : PinBytes) : Nat := p.bytes.length

/-- `Puk`: eight to twelve digits. -/
structure Puk where
  pin : PinBytes
  length_ge : 8 ≤ pin.digitCount
  deriving DecidableEq

/-- `ActivationScheme`. -/
inductive ActivationScheme where
  | activationCodeIsPuk
  | presetActivationPin
  deriving Repr, DecidableEq

/-- `ActivationScheme::activation_entry_digit_count`. -/
def ActivationScheme.activationEntryDigitCount : ActivationScheme → Nat
  | .activationCodeIsPuk => 8
  | .presetActivationPin => 7

/-- `ActivationCode`: the variant fixes the length. -/
inductive ActivationCode where
  | seven (pin : PinBytes) (h : pin.digitCount = 7)
  | eight (pin : PinBytes) (h : pin.digitCount = 8)

/-- `ActivationCode::to_pin_bytes`. -/
def ActivationCode.toPinBytes : ActivationCode → PinBytes
  | .seven pin _ => pin
  | .eight pin _ => pin

/-- `PinPolicyReason`. -/
inductive PinPolicyReason where
  | wrongLength (got min max : Nat)
  | nonDigit (byteOffset : Nat)
  | noAcceptedLength
  deriving Repr, DecidableEq

/-- `PinActivation`. -/
inductive PinActivation where
  | awaitsActivation
  | activated
  deriving Repr, DecidableEq

/-- `PinActivation::judge`: the changed flag decides, and failing it, under the PUK scheme,
    an exhausted or blocked counter. -/
def PinActivation.judge (scheme : ActivationScheme) (changed : Option Bool)
    (status : Option PinStatus) : PinActivation :=
  match changed with
  | some false => .awaitsActivation
  | some true => .activated
  | none =>
    match scheme, status with
    | .activationCodeIsPuk, some .locked => .awaitsActivation
    | .activationCodeIsPuk, some (.remaining 0) => .awaitsActivation
    | _, _ => .activated

/-- `CardPinError`.  Transport and PC/SC errors by their text. -/
inductive CardPinError where
  | pcsc (detail : String)
  | pinPolicy (reason : PinPolicyReason)
  | pkcs15Select (detail : String)
  | transport (detail : String)
  | activationLengthMismatch (scheme : ActivationScheme) (expected : Nat)
  | cardSessionRevoked (reason : String)
  | cardLooksUnactivated (slot : PinSlot) (probe : Option PinStatus)
  | retryFloor (refusal : RetryFloorRefusal)
  | activationEntriesMismatch (pin1Awaits pin2Awaits : Bool)
  deriving Repr, DecidableEq

/-- The `PasswordLengthRange` of the PKCS#15 crate, as given functions. -/
structure LengthRanges (R : Type) where
  new : Nat → Nat → Option R
  min : R → Nat
  max : R → Nat
  contains : R → Nat → Bool
  intersection : R → R → Option R
  /-- The constants `PIN_CAPACITY` / `FINEID_PIN1_BOUNDS` (4 to 12), `FINEID_PIN2_BOUNDS`
      (6 to 12) and `PUK_CAPACITY` (8 to 12), whose `expect` is checked at compile time. -/
  pinCapacity : R
  pin2Bounds : R
  pukCapacity : R

/-- `CardPinLengths`. -/
structure CardPinLengths (R : Type) where
  numbering : PinReferenceScheme
  pin1 : Option R
  pin2 : Option R
  puk : Option R

/-! ## §4. The session -/

/-- `ResetRetryCounterMode`. -/
inductive ResetRetryCounterMode where
  | codeThenNew
  | newOnly
  deriving Repr, DecidableEq

/-- The commands of `auth/commands.rs` the flows send. -/
inductive Apdu where
  /-- VERIFY without data: answers the counter, spends nothing. -/
  | verifyProbe (reference : CredentialReference)
  | verify (reference : CredentialReference) (block : Bytes)
  | changeReferenceData (reference : CredentialReference) (paddedPair : Bytes)
  | resetRetryCounter (target : CredentialReference) (mode : ResetRetryCounterMode)
      (block : Bytes)
  | getPinInfo (scheme : PinReferenceScheme) (slot : PinSlot)
  | getPukInfo
  deriving Repr, DecidableEq

structure Response where
  body : Bytes
  sw : StatusWord
  deriving Repr, DecidableEq

/-- What happened in the session: composite reads as one event, and each APDU with the
    slot whose step sent it and the card's answer. -/
inductive Event where
  | selectApplication
  | tokenInfo (serial : Option String)
  | authenticationObjects
  | apdu (slot : Option PinSlot) (command : Apdu) (answer : Except String Response)
  deriving DecidableEq

/-- **The card**: any answers whatever, as a function of the session so far. -/
structure Card (R : Type) where
  /-- `backend.open_exclusive`. -/
  openExclusive : Except String Unit
  select : List Event → Except String Unit
  /-- The `serialNumber` of EF.TokenInfo, rendered; `none` when there is none. -/
  tokenInfo : List Event → Except String (Option String)
  /-- EF.AOD: the password objects by reference; `ok none` for anything but a transport
      failure. -/
  authenticationObjects : List Event → Except String (Option (List (UInt8 × R)))
  transmit : List Event → Apdu → Except String Response

/-- A program of the session. -/
abbrev Session := Flow Event CardPinError

section
variable {R : Type} (L : LengthRanges R) (card : Card R)

/-- `transmit`, with the event it leaves. -/
def transmit (slot : Option PinSlot) (command : Apdu) : Session Response := fun h =>
  let answer := card.transmit h command
  (answer.mapError .transport, .apdu slot command answer :: h)

/-- `select_pkcs15_application`. -/
def selectPkcs15Application : Session Unit := fun h =>
  ((card.select h).mapError .pkcs15Select, .selectApplication :: h)

/-- `re_verify_session`. -/
def reVerifySession (boundSerial : String) : Session Unit := fun h =>
  match card.tokenInfo h with
  | .error e =>
    (.error (.cardSessionRevoked ("re-read EF.TokenInfo failed: " ++ e)), .tokenInfo none :: h)
  | .ok none =>
    (.error (.cardSessionRevoked "card no longer publishes EF.TokenInfo serial"),
      .tokenInfo none :: h)
  | .ok (some serial) =>
    (if serial ≠ boundSerial then
      .error (.cardSessionRevoked ("card serial changed mid-flow: bound to TokenSerial(" ++
        boundSerial.quote ++ "), reader now reports TokenSerial(" ++ serial.quote ++ ")"))
    else .ok (), .tokenInfo (some serial) :: h)

/-- `probe_status_word`. -/
def probeStatusWord (slot : Option PinSlot) (reference : CredentialReference) :
    Session StatusWord := do
  let r ← transmit card slot (.verifyProbe reference)
  return r.sw

/-- `pin_status_with_scheme`. -/
def pinStatusWithScheme (scheme : PinReferenceScheme) (slot : PinSlot) : Session PinStatus := do
  let sw ← probeStatusWord card (some slot) (.pin scheme slot)
  return classifyPinStatusSw sw

/-- The first suffix of `body` that `f` reads: `body.windows(n).find_map(f)`. -/
def findWindow {α : Type} (f : Bytes → Option α) : Bytes → Option α
  | [] => none
  | b :: bs =>
    match f (b :: bs) with
    | some a => some a
    | none => findWindow f bs

/-- `PinInfoResponse::try_counter_from_response_body`. -/
def tryCounterFromResponseBody : Bytes → Option Nat :=
  findWindow fun
    | 0xDF :: 0x21 :: 0x04 :: tries :: _ :: _ :: _ :: _ =>
      if tries.toNat ≤ 0x0F then some tries.toNat else none
    | _ => none

/-- `PinInfoResponse::changed_flag_from_response_body`. -/
def changedFlagFromResponseBody : Bytes → Option Bool :=
  findWindow fun
    | 0xDF :: 0x2F :: 0x01 :: value :: _ => some (value == 1)
    | _ => none

/-- `PinInfoResponse::policy_lengths_from_response_body`. -/
def policyLengthsFromResponseBody : Bytes → Option R :=
  findWindow fun window =>
    match window with
    | 0xDF :: 0x3F :: 20 :: _ :: min :: max :: rest =>
      if 17 ≤ rest.length ∧ 4 ≤ min.toNat ∧ min.toNat ≤ 64 ∧ 4 ≤ max.toNat ∧ max.toNat ≤ 64 then
        L.new min.toNat max.toNat
      else none
    | _ => none

/-- The PUK's status in a citizen card's PIN container. -/
def citizenPukStatus (r : Response) : PukStatus :=
  if r.sw = .success then
    match tryCounterFromResponseBody r.body with
    | some retries => .remaining retries
    | none => .noInfo
  else classifyPukStatusSw r.sw

/-- `puk_status_with_scheme`: the citizen card answers from its PIN container. -/
def pukStatusWithScheme (slot : Option PinSlot) (scheme : PinReferenceScheme) :
    Session PukStatus :=
  match scheme with
  | .organizational => do
    let sw ← probeStatusWord card slot (.puk .organizational)
    return classifyPukStatusSw sw
  | .citizen => do
    let r ← transmit card slot .getPukInfo
    return citizenPukStatus r

/-- `pin_changed_flag_with_scheme`. -/
def pinChangedFlagWithScheme (scheme : PinReferenceScheme) (slot : PinSlot) :
    Session (Option Bool) := do
  let r ← transmit card (some slot) (.getPinInfo scheme slot)
  return (if r.sw = .success then changedFlagFromResponseBody r.body else none)

/-- `resolve_pin_reference_scheme`. -/
def resolvePinReferenceScheme : Session PinReferenceScheme := do
  let citizen ← probeStatusWord card none (.pin .citizen .pin1)
  if citizen ≠ .referenceDataNotFound then return .citizen
  let organizational ← probeStatusWord card none (.pin .organizational .pin1)
  return (match classifyPinStatusSw organizational with
    | .other _ => .citizen
    | _ => .organizational)

/-! ## §5. Lengths -/

/-- `directory_range`: the one object with this reference, with or without the
    specific-reference bit. -/
def directoryRange (objects : List (UInt8 × R)) (expected : UInt8) : Option R :=
  match objects.filter fun o => o.1 ||| 0x80 = expected ||| 0x80 with
  | [o] => some o.2
  | _ => none

/-- `pin_policy_lengths`. -/
def pinPolicyLengths (credential : CredentialReference) : Session (Option R) := do
  let r ← transmit card none (match credential with
    | .pin scheme slot => .getPinInfo scheme slot
    | .puk _ => .getPukInfo)
  return (if r.sw = .success then policyLengthsFromResponseBody L r.body else none)

/-- One credential of `CardPinLengths::from_card`: the directory, then the citizen card's
    PIN container. -/
def listedRange (numbering : PinReferenceScheme) (objects : Option (List (UInt8 × R)))
    (credential : CredentialReference) : Session (Option R) :=
  match objects.bind fun os => directoryRange os credential.asByte with
  | some range => return some range
  | none =>
    match numbering with
    | .citizen => pinPolicyLengths L card credential
    | .organizational => return none

/-- `read_authentication_objects`, as `read_card_pin_lengths` takes it. -/
def readAuthenticationObjects : Session (Option (List (UInt8 × R))) := fun h =>
  ((card.authenticationObjects h).mapError .transport, .authenticationObjects :: h)

/-- `accepted`. -/
def acceptedRange (listed : Option R) (capacity fallback : R) : Option R :=
  match listed with
  | some range => L.intersection range capacity
  | none => some fallback

/-- `read_card_pin_lengths`: the numbering is resolved anew. -/
def readCardPinLengths : Session (CardPinLengths R) := do
  let numbering ← resolvePinReferenceScheme card
  let objects ← readAuthenticationObjects card
  let pin1 ← listedRange L card numbering objects (.pin numbering .pin1)
  let pin2 ← listedRange L card numbering objects (.pin numbering .pin2)
  let puk ← listedRange L card numbering objects (.puk numbering)
  return { numbering
           pin1 := acceptedRange L pin1 L.pinCapacity L.pinCapacity
           pin2 := acceptedRange L pin2 L.pinCapacity L.pin2Bounds
           puk := acceptedRange L puk L.pukCapacity L.pukCapacity }

/-- `check` of `pin_lengths.rs`. -/
def checkLength (accepted : Option R) (digitCount : Nat) : Except PinPolicyReason Unit :=
  match accepted with
  | none => .error .noAcceptedLength
  | some range =>
    if L.contains range digitCount then .ok ()
    else .error (.wrongLength digitCount (L.min range) (L.max range))

/-- `CardPinLengths::check_pin`. -/
def CardPinLengths.checkPin (lengths : CardPinLengths R) (slot : PinSlot) (digitCount : Nat) :
    Except PinPolicyReason Unit :=
  checkLength L (match slot with
    | .pin1 => lengths.pin1
    | .pin2 => lengths.pin2) digitCount

/-- `CardPinLengths::check_puk`. -/
def CardPinLengths.checkPuk (lengths : CardPinLengths R) (digitCount : Nat) :
    Except PinPolicyReason Unit :=
  checkLength L lengths.puk digitCount

/-- `PinPolicyCheck::validate_for_card`. -/
def validateForCard (ascii : Bytes) (check : Nat → Except PinPolicyReason Unit) :
    Except CardPinError Unit :=
  match ascii.findIdx? fun b => !isAsciiDigit b with
  | some off => .error (.pinPolicy (.nonDigit off))
  | none => (check ascii.length).mapError .pinPolicy

/-! ## §6. The two modifying commands -/

/-- `PIN1_STORED_LENGTH`, `PIN2_STORED_LENGTH` and `PUK_STORED_LENGTH`. -/
def storedLength : Nat := 12

/-- `CredentialBlock::push`: a citizen card takes blocks padded with zeros. -/
def credentialBlock (scheme : PinReferenceScheme) (digits : Bytes) : Bytes :=
  match scheme with
  | .citizen => digits ++ List.replicate (storedLength - digits.length) 0
  | .organizational => digits

/-- `change_pin`. -/
def changePin (lengths : CardPinLengths R) (slot : PinSlot) (currentPin newPin : PinBytes) :
    Session ChangePinOutcome := do
  let scheme := lengths.numbering
  Flow.lift (validateForCard currentPin.bytes (lengths.checkPin L slot))
  Flow.lift (validateForCard newPin.bytes (lengths.checkPin L slot))
  let block := credentialBlock scheme currentPin.bytes ++ credentialBlock scheme newPin.bytes
  let r ← transmit card (some slot) (.changeReferenceData (.pin scheme slot) block)
  return classifyChangePinSw r.sw

/-- The last command of `reset_retry_counter`. -/
def sendReset (scheme : PinReferenceScheme) (target : PinSlot) (mode : ResetRetryCounterMode)
    (block : Bytes) : Session UnblockOutcome := do
  let r ← transmit card (some target) (.resetRetryCounter (.pin scheme target) mode block)
  return classifyResetRetrySw r.sw

/-- `reset_retry_counter`: a citizen card takes PUK and new PIN in one command, an
    organizational card the PUK in a VERIFY first. -/
def resetRetryCounter (lengths : CardPinLengths R) (target : PinSlot) (puk newPin : PinBytes) :
    Session UnblockOutcome := do
  let scheme := lengths.numbering
  Flow.lift (validateForCard puk.bytes (lengths.checkPuk L))
  Flow.lift (validateForCard newPin.bytes (lengths.checkPin L target))
  match scheme with
  | .citizen =>
    sendReset card scheme target .codeThenNew
      (credentialBlock scheme puk.bytes ++ credentialBlock scheme newPin.bytes)
  | .organizational => do
    let r ← transmit card (some target)
      (.verify (.puk scheme) (credentialBlock scheme puk.bytes))
    let verified := classifyResetRetrySw r.sw
    if verified ≠ .ok then return verified
    sendReset card scheme target .newOnly (credentialBlock scheme newPin.bytes)

/-! ## §7. The flows -/

/-- The bound session behind `PinManagementCardContext` and `ActivationCardContext`. -/
structure CardContext where
  readerId : String
  person : String
  cardSerial : String
  numbering : PinReferenceScheme
  scheme : ActivationScheme
  boundSerial : String
  deriving Repr, DecidableEq

/-- `probe_pin_activation`. -/
def probePinActivation (numbering : PinReferenceScheme) (scheme : ActivationScheme)
    (slot : PinSlot) : Session (Option PinStatus × PinActivation) := do
  let status ← Flow.attempt (pinStatusWithScheme card numbering slot)
  let changed ← Flow.attempt (pinChangedFlagWithScheme card numbering slot)
  return (status, PinActivation.judge scheme changed.join status)

/-- `require_activated`. -/
def requireActivated (ctx : CardContext) (slot : PinSlot) : Session PinStatus := do
  let (probe, verdict) ← probePinActivation card ctx.numbering ctx.scheme slot
  match verdict, probe with
  | .activated, some status => return status
  | _, _ => Flow.throw (.cardLooksUnactivated slot probe)

/-- `puk_retry_floor`. -/
def pukRetryFloor (slot : PinSlot) (numbering : PinReferenceScheme) : Session Unit := do
  let status ← pukStatusWithScheme card (some slot) numbering
  Flow.lift ((checkPukRetryFloor status).mapError .retryFloor)

/-- `ChangePinReport`. -/
structure ChangePinReport where
  reader : String
  cardSerial : String
  person : String
  slot : PinSlot
  outcome : ChangePinOutcome
  deriving Repr, DecidableEq

/-- `UnblockPinReport`. -/
structure UnblockPinReport where
  reader : String
  cardSerial : String
  person : String
  slot : PinSlot
  outcome : UnblockOutcome
  deriving Repr, DecidableEq

/-- Opening the reader and selecting the application, as all three flows begin. -/
def openSession (boundSerial : String) : Session Unit := do
  Flow.lift (card.openExclusive.mapError .pcsc)
  selectPkcs15Application card
  reVerifySession card boundSerial

/-- `change_pin_first`. -/
def changePinFirst (ctx : CardContext) (slot : PinSlot) (current new : PinBytes) :
    Session ChangePinReport := do
  openSession card ctx.boundSerial
  let lengths ← readCardPinLengths L card
  let status ← requireActivated card ctx slot
  Flow.lift ((checkRetryFloor (.ofSlot slot) status).mapError .retryFloor)
  reVerifySession card ctx.boundSerial
  let outcome ← changePin L card lengths slot current new
  return { reader := ctx.readerId, cardSerial := ctx.cardSerial, person := ctx.person, slot,
           outcome }

/-- `unblock_pin_first`. -/
def unblockPinFirst (ctx : CardContext) (slot : PinSlot) (puk : Puk) (newPin : PinBytes) :
    Session UnblockPinReport := do
  openSession card ctx.boundSerial
  let lengths ← readCardPinLengths L card
  let _ ← requireActivated card ctx slot
  reVerifySession card ctx.boundSerial
  pukRetryFloor card slot ctx.numbering
  let outcome ← resetRetryCounter L card lengths slot puk.pin newPin
  return { reader := ctx.readerId, cardSerial := ctx.cardSerial, person := ctx.person, slot,
           outcome }

/-- `ActivatePreflightOutcome`. -/
inductive ActivatePreflightOutcome where
  | awaitsActivation (pin1 pin2 : PinActivation)
  | nothingAwaits (pin1 pin2 : PinActivation)
  deriving Repr, DecidableEq

/-- `classify_preflight`. -/
def classifyPreflight (pin1 pin2 : PinActivation) : ActivatePreflightOutcome :=
  if pin1 = .awaitsActivation ∨ pin2 = .awaitsActivation then .awaitsActivation pin1 pin2
  else .nothingAwaits pin1 pin2

/-- `ActivatePreflightOutcome::looks_activated`. -/
def ActivatePreflightOutcome.looksActivated : ActivatePreflightOutcome → Bool
  | .awaitsActivation _ _ => false
  | .nothingAwaits _ _ => true

/-- `ActivateReport`. -/
structure ActivateReport where
  reader : String
  preflight : ActivatePreflightOutcome
  pin1Outcome : Option UnblockOutcome
  pin2Outcome : Option UnblockOutcome
  deriving Repr, DecidableEq

/-- `ActivateOptions`. -/
structure ActivateOptions where
  activationCode : PinBytes
  newPin1 : Option PinBytes
  newPin2 : Option PinBytes
  allowReactivate : Bool

/-- `activation_code_for`; a `PinBytes` has digits only, so a length is all that can be
    wrong. -/
def activationCodeFor (scheme : ActivationScheme) (code : PinBytes) :
    Except CardPinError ActivationCode :=
  match scheme with
  | .presetActivationPin =>
    if h : code.digitCount = 7 then .ok (.seven code h)
    else .error (.activationLengthMismatch scheme scheme.activationEntryDigitCount)
  | .activationCodeIsPuk =>
    if h : code.digitCount = 8 then .ok (.eight code h)
    else .error (.activationLengthMismatch scheme scheme.activationEntryDigitCount)

/-- `activation_targets`. -/
def activationTargets (pin1 pin2 : PinActivation) (pin1Entered pin2Entered : Bool)
    (allowReactivate : Bool) : Except CardPinError (Bool × Bool) :=
  let pin1Awaits := decide (pin1 = .awaitsActivation)
  let pin2Awaits := decide (pin2 = .awaitsActivation)
  let matchesCard := pin1Entered == pin1Awaits && pin2Entered == pin2Awaits
  if (pin1Entered || pin2Entered) && (allowReactivate || matchesCard) then
    .ok (pin1Entered, pin2Entered)
  else .error (.activationEntriesMismatch pin1Awaits pin2Awaits)

/-- One entry of `check_activation_entries`. -/
def checkActivationEntry (lengths : CardPinLengths R) (code : ActivationCode) (slot : PinSlot)
    (pin : Option PinBytes) : Except PinPolicyReason Unit :=
  match pin with
  | none => .ok ()
  | some pin => do
    match code with
    | .seven _ _ => lengths.checkPin L slot code.toPinBytes.digitCount
    | .eight _ _ => lengths.checkPuk L code.toPinBytes.digitCount
    lengths.checkPin L slot pin.digitCount

/-- `check_activation_entries`. -/
def checkActivationEntries (lengths : CardPinLengths R) (code : ActivationCode)
    (newPin1 newPin2 : Option PinBytes) : Except CardPinError Unit := do
  (checkActivationEntry L lengths code .pin1 newPin1).mapError CardPinError.pinPolicy
  (checkActivationEntry L lengths code .pin2 newPin2).mapError CardPinError.pinPolicy

/-- `change_to_unblock`. -/
def changeToUnblock : ChangePinOutcome → UnblockOutcome
  | .ok => .ok
  | .wrongCurrentPin retries => .wrongPuk retries
  | .locked => .pukLocked
  | .lengthError => .lengthError
  | .other sw => .other sw

/-- `activate_slot_setup`: probe and command under the same numbering. -/
def activateSlotSetup (lengths : CardPinLengths R) (slot : PinSlot) (code : ActivationCode)
    (newPin : PinBytes) : Session UnblockOutcome :=
  match code with
  | .seven pin _ => do
    let status ← pinStatusWithScheme card lengths.numbering slot
    Flow.lift ((checkActivationLastTries (.ofSlot slot) status).mapError .retryFloor)
    let outcome ← changePin L card lengths slot pin newPin
    return changeToUnblock outcome
  | .eight pin _ => do
    pukRetryFloor card slot lengths.numbering
    resetRetryCounter L card lengths slot pin newPin

/-- The PIN2 part of `activate_first`. -/
def activatePin2 (ctx : CardContext) (lengths : CardPinLengths R) (code : ActivationCode)
    (newPin2 : Option PinBytes) : Session (Option UnblockOutcome) :=
  match newPin2 with
  | none => return none
  | some pin => do
    reVerifySession card ctx.boundSerial
    let outcome ← activateSlotSetup L card lengths .pin2 code pin
    return some outcome

/-- The part of `activate_first` that sets PINs. -/
def activateSlots (ctx : CardContext) (options : ActivateOptions) (lengths : CardPinLengths R)
    (code : ActivationCode) (preflight : ActivatePreflightOutcome) : Session ActivateReport :=
  match options.newPin1 with
  | none => do
    let pin2Outcome ← activatePin2 L card ctx lengths code options.newPin2
    return ⟨ctx.readerId, preflight, none, pin2Outcome⟩
  | some newPin1 => do
    reVerifySession card ctx.boundSerial
    let outcome ← activateSlotSetup L card lengths .pin1 code newPin1
    -- anything but Ok ends the flow before PIN2
    if outcome ≠ .ok then return ⟨ctx.readerId, preflight, some outcome, none⟩
    let pin2Outcome ← activatePin2 L card ctx lengths code options.newPin2
    return ⟨ctx.readerId, preflight, some outcome, pin2Outcome⟩

/-- `activate_first`. -/
def activateFirst (ctx : CardContext) (options : ActivateOptions) : Session ActivateReport := do
  let code ← Flow.lift (activationCodeFor ctx.scheme options.activationCode)
  openSession card ctx.boundSerial
  let lengths ← readCardPinLengths L card
  let (_, pin1) ← probePinActivation card ctx.numbering ctx.scheme .pin1
  let (_, pin2) ← probePinActivation card ctx.numbering ctx.scheme .pin2
  let preflight := classifyPreflight pin1 pin2
  if !options.allowReactivate && preflight.looksActivated then
    return ⟨ctx.readerId, preflight, none, none⟩
  let _ ← Flow.lift (activationTargets pin1 pin2 options.newPin1.isSome options.newPin2.isSome
    options.allowReactivate)
  Flow.lift (checkActivationEntries L lengths code options.newPin1 options.newPin2)
  activateSlots L card ctx options lengths code preflight

end

end CardPin

end RefineId
