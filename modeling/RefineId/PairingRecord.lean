/-
  RefineId.PairingRecord — one stored pairing and its lifecycle.
  ════════════════════════════════════════════════════════════════════════════

  `crates/refineid-rapp-core/src/store.rs` keeps for each paired phone the protocol
  engine's own record (the keys, whether the peer confirmed its storage, when the user
  forgot the pairing) with the peer's platform and the certificates its card answered
  with.  Where a pairing stands is not stored but read off these fields.

  The engine is a crate of its own.  What the record layer uses of it is the structure
  `Engine`; what it relies on is `Engine.Lawful`.

  Main results:
    • `Fate.refl`, `Fate.trans` : a record's fate is one-way by its shape.
    • `Change.fate`             : every change of a record moves it along its fate.
    • `sweep_fate`              : so does the idle-expiry check.
-/
import RefineId.Ber
import RefineId.Lib.Utf8
import RefineId.Lib.Outcome

namespace RefineId.Pairing

open Lib

/-! ## §1. The engine -/

/-- A pairing id: `[u8; PAIR_ID_SIZE]`. -/
structure PairId (size : Nat) where
  bytes : Bytes
  length_eq : bytes.length = size
  deriving DecidableEq

instance (size : Nat) : Inhabited (PairId size) :=
  ⟨⟨List.replicate size 0, List.length_replicate⟩⟩

/-- `EndpointRole`. -/
inductive EndpointRole where
  | requester
  | custodian
  deriving Repr, DecidableEq

/-- `SweepOutcome`. -/
inductive SweepOutcome where
  | expired
  | recorded
  | kept
  deriving Repr, DecidableEq

/-- What the record layer uses of the protocol engine and of the certificate parser. -/
structure Engine where
  /-- `PAIR_ID_SIZE`. -/
  pairIdSize : Nat
  /-- `PairRecord`. -/
  PairRecord : Type
  /-- `ActivePairing`, the proof of the peer's confirmation. -/
  ActivePairing : Type
  /-- `PairRecordCodecError`. -/
  CodecError : Type
  /-- `DisplayName`. -/
  DisplayName : Type
  /-- `OwnedCert`. -/
  Certificate : Type
  /-- `CertificateFingerprint`. -/
  Fingerprint : Type
  pairId : PairRecord → PairId pairIdSize
  role : PairRecord → EndpointRole
  peerDisplayName : PairRecord → DisplayName
  isStorageConfirmed : PairRecord → Bool
  forgottenAtMs : PairRecord → Option Nat
  /-- `PairRecord::forgotten`. -/
  forgotten : PairRecord → Nat → PairRecord
  /-- `PairRecord::record_peer_display_name`: the renamed record, if the name differs. -/
  recordPeerDisplayName : PairRecord → DisplayName → Option PairRecord
  /-- `ActivePairing::confirm`; `none` is its error. -/
  confirm : ActivePairing → PairRecord → Option PairRecord
  /-- The decision of `PairRecord::sweep` at a time, with or without a session: the checked
      record, or `none` when nothing changes. -/
  check : PairRecord → Nat → Bool → Option (SweepOutcome × PairRecord)
  /-- `PairRecord::revocation_notice_expired`. -/
  revocationNoticeExpired : PairRecord → Nat → Bool
  /-- `encode_pair_record`. -/
  encodePairRecord : PairRecord → Except CodecError Bytes
  /-- `decode_pair_record`. -/
  decodePairRecord : Bytes → Except CodecError PairRecord
  /-- Whether an error is `PairRecordCodecError::UnsupportedVersion`. -/
  isUnsupportedVersion : CodecError → Bool
  /-- `DisplayName::parse`. -/
  parseDisplayName : Text → Option DisplayName
  /-- `DisplayName::as_str`. -/
  displayNameText : DisplayName → Text
  /-- `OwnedCert::from_der`. -/
  fromDer : Bytes → Option Certificate
  /-- `OwnedCert::as_der`. -/
  asDer : Certificate → Bytes
  /-- `CertificateFingerprint::of_certificate`. -/
  fingerprint : Certificate → Fingerprint
  /-- `IDENTITY_OFFER_GRACE_MS`. -/
  identityOfferGraceMs : Nat
  decEqFingerprint : DecidableEq Fingerprint

/-- What the engine's operations leave alone: a record keeps its id, and no operation
    takes back or redates a forgetting. -/
structure Engine.Lawful (E : Engine) : Prop where
  forgotten_pairId : ∀ k at', E.pairId (E.forgotten k at') = E.pairId k
  forgotten_at : ∀ k at', E.forgottenAtMs (E.forgotten k at') = some at'
  renamed_pairId : ∀ k name k', E.recordPeerDisplayName k name = some k' → E.pairId k' = E.pairId k
  renamed_forgotten : ∀ k name k', E.recordPeerDisplayName k name = some k' →
    E.forgottenAtMs k' = E.forgottenAtMs k
  confirmed_pairId : ∀ active k k', E.confirm active k = some k' → E.pairId k' = E.pairId k
  confirmed_forgotten : ∀ active k k', E.confirm active k = some k' →
    E.forgottenAtMs k' = E.forgottenAtMs k
  checked_pairId : ∀ k now session outcome k', E.check k now session = some (outcome, k') →
    E.pairId k' = E.pairId k
  checked_forgotten : ∀ k now session outcome k', E.check k now session = some (outcome, k') →
    ∀ at', E.forgottenAtMs k = some at' → E.forgottenAtMs k' = some at'

variable {E : Engine}

/-! ## §2. The record -/

/-- `Keys`. -/
inductive Keys (E : Engine) where
  | held (record : E.PairRecord)
  | revoked (pairId : PairId E.pairIdSize) (byPeer : Bool) (peerDisplayName : E.DisplayName)

/-- `Certificates`. -/
structure Certificates (E : Engine) where
  authentication : Option E.Certificate := none
  signature : Option E.Certificate := none
  root : Option E.Certificate := none
  intermediate : Option E.Certificate := none

/-- `PairingState`. -/
inductive PairingState where
  | unconfirmed
  | serving
  | forgotten
  | revoked (byPeer : Bool)
  deriving Repr, DecidableEq

/-- `PairingRecord`. -/
structure PairingRecord (E : Engine) where
  keys : Keys E
  peerPlatform : Text
  certificates : Certificates E

namespace PairingRecord

/-- `PairingRecord::new`. -/
def new (record : E.PairRecord) (peerPlatform : Text) : PairingRecord E :=
  ⟨.held record, peerPlatform, {}⟩

/-- `PairingRecord::revoked`. -/
def revoked (pairId : PairId E.pairIdSize) (byPeer : Bool) (peerDisplayName : E.DisplayName)
    (peerPlatform : Text) : PairingRecord E :=
  ⟨.revoked pairId byPeer peerDisplayName, peerPlatform, {}⟩

/-- `PairingRecord::pair_id`. -/
def pairId (r : PairingRecord E) : PairId E.pairIdSize :=
  match r.keys with
  | .held record => E.pairId record
  | .revoked pairId _ _ => pairId

/-- `PairingRecord::peer_display_name`. -/
def peerDisplayName (r : PairingRecord E) : E.DisplayName :=
  match r.keys with
  | .held record => E.peerDisplayName record
  | .revoked _ _ name => name

/-- `PairingRecord::state`. -/
def state (r : PairingRecord E) : PairingState :=
  match r.keys with
  | .revoked _ byPeer _ => .revoked byPeer
  | .held record =>
    match E.forgottenAtMs record with
    | some _ => .forgotten
    | none => if E.isStorageConfirmed record then .serving else .unconfirmed

/-- `PairingRecord::serves`. -/
def serves (r : PairingRecord E) : Bool := r.state = .serving

/-- `PairingRecord::pair_record`. -/
def pairRecord (r : PairingRecord E) : Option E.PairRecord :=
  match r.keys with
  | .held record => some record
  | .revoked _ _ _ => none

/-- When the user forgot the pairing, as the engine's record holds it. -/
def forgottenAtMs (r : PairingRecord E) : Option Nat := r.pairRecord.bind E.forgottenAtMs

/-- `PairingRecord::revoked_keys`. -/
def revokedKeys (r : PairingRecord E) (byPeer : Bool) : Keys E :=
  .revoked r.pairId byPeer r.peerDisplayName

/-- `PairingRecord::rename_peer`. -/
def renamePeer (r : PairingRecord E) (name : E.DisplayName) : Bool × PairingRecord E :=
  match r.keys with
  | .held record =>
    match E.recordPeerDisplayName record name with
    | some renamed => (true, { r with keys := .held renamed })
    | none => (false, r)
  | .revoked _ _ _ => (false, r)

/-- `PairingRecord::confirm_storage`: a refused confirmation leaves the keys destroyed. -/
def confirmStorage (r : PairingRecord E) (active : E.ActivePairing) : Bool × PairingRecord E :=
  match r.keys with
  | .held record =>
    match E.confirm active record with
    | some confirmed => (true, { r with keys := .held confirmed })
    | none => (false, { r with keys := r.revokedKeys false })
  | .revoked _ _ _ => (false, r)

/-- `PairingRecord::forget`: a pairing already forgotten keeps its first time. -/
def forget (r : PairingRecord E) (atMs : Nat) : PairingRecord E :=
  match r.keys with
  | .held record =>
    if (E.forgottenAtMs record).isNone then { r with keys := .held (E.forgotten record atMs) }
    else r
  | .revoked _ _ _ => r

/-- `PairingRecord::revoke`. -/
def revoke (r : PairingRecord E) (byPeer : Bool) : PairingRecord E :=
  { r with keys := r.revokedKeys byPeer, certificates := {} }

/-- Why a sweep changed nothing (`RecordStoreError`). -/
inductive RecordStoreError (E : Engine) (ε : Type) where
  | encoding (error : E.CodecError)
  | store (error : ε)

/-- What the idle-expiry check hands to the store: an expired record loses its keys. -/
def checkedRecord (r : PairingRecord E) (checked : E.PairRecord) : PairingRecord E :=
  if (E.forgottenAtMs checked).isSome then
    { r with keys := r.revokedKeys false, certificates := {} }
  else { r with keys := .held checked }

/-- `PairingRecord::sweep`: the change is stored before it is made. -/
def sweep {ε : Type} (r : PairingRecord E) (nowMs : Nat) (sessionEstablished : Bool)
    (store : PairingRecord E → Except ε Unit) :
    Except (RecordStoreError E ε) SweepOutcome × PairingRecord E :=
  match r.keys with
  | .revoked _ _ _ => (.ok .kept, r)
  | .held record =>
    match E.check record nowMs sessionEstablished with
    | none => (.ok .kept, r)
    | some (outcome, checked) =>
      -- the engine encodes what it checked, and the callback decodes it again
      match E.encodePairRecord checked with
      | .error e => (.error (.encoding e), r)
      | .ok encoded =>
        match E.decodePairRecord encoded with
        | .error e => (.error (.encoding e), r)
        | .ok decoded =>
          match store (r.checkedRecord decoded) with
          | .error e => (.error (.store e), r)
          | .ok () =>
            let kept : PairingRecord E := { r with keys := .held checked }
            (.ok outcome, if outcome = .expired then kept.revoke false else kept)

end PairingRecord

/-- The changes the program makes to one stored record. -/
inductive Change (E : Engine) where
  | confirmStorage (active : E.ActivePairing)
  | forget (atMs : Nat)
  | revoke (byPeer : Bool)
  | renamePeer (name : E.DisplayName)
  | rememberAuthentication (certificate : E.Certificate)
  | rememberSignature (certificate : E.Certificate)
  | rememberRoot (certificate : E.Certificate)
  | rememberIntermediate (certificate : E.Certificate)

/-- The record after a change. -/
def Change.apply (r : PairingRecord E) : Change E → PairingRecord E
  | .confirmStorage active => (r.confirmStorage active).2
  | .forget atMs => r.forget atMs
  | .revoke byPeer => r.revoke byPeer
  | .renamePeer name => (r.renamePeer name).2
  | .rememberAuthentication c => { r with certificates := { r.certificates with authentication := some c } }
  | .rememberSignature c => { r with certificates := { r.certificates with signature := some c } }
  | .rememberRoot c => { r with certificates := { r.certificates with root := some c } }
  | .rememberIntermediate c =>
    { r with certificates := { r.certificates with intermediate := some c } }

/-! ## §3. A record's fate -/

/-- `r'` is where `r` may go without a fresh record: destroyed keys stay destroyed, and a
    forgetting keeps its time for as long as the keys are there. -/
structure Fate (r r' : PairingRecord E) : Prop where
  pairId : r'.pairId = r.pairId
  revoked : r.pairRecord = none → r'.pairRecord = none
  forgotten : ∀ at', r.forgottenAtMs = some at' →
    r'.pairRecord = none ∨ r'.forgottenAtMs = some at'

theorem Fate.refl (r : PairingRecord E) : Fate r r := ⟨rfl, id, fun _ h => .inr h⟩

theorem Fate.trans {r r' r'' : PairingRecord E} (h : Fate r r') (h' : Fate r' r'') : Fate r r'' := by
  refine ⟨h'.pairId.trans h.pairId, fun hr => h'.revoked (h.revoked hr), fun at' hat => ?_⟩
  rcases h.forgotten at' hat with hnone | hat'
  · exact .inl (h'.revoked hnone)
  · exact h'.forgotten at' hat'

/-- Destroying the keys is allowed at any time. -/
theorem fate_revokedKeys (r : PairingRecord E) (byPeer : Bool) (certificates : Certificates E) :
    Fate r { r with keys := r.revokedKeys byPeer, certificates := certificates } :=
  ⟨rfl, fun _ => rfl, fun _ _ => .inl rfl⟩

/-- So is a change of the engine's record that keeps the id and the forgetting. -/
theorem fate_held {r : PairingRecord E} {k k' : E.PairRecord} (hkeys : r.keys = .held k)
    (hid : E.pairId k' = E.pairId k)
    (hat : ∀ at', E.forgottenAtMs k = some at' → E.forgottenAtMs k' = some at') :
    Fate r { r with keys := .held k' } := by
  have hrecord : r.pairRecord = some k := by
    unfold PairingRecord.pairRecord
    rw [hkeys]
  refine ⟨?_, ?_, ?_⟩
  · unfold PairingRecord.pairId
    rw [hkeys]
    exact hid
  · intro hnone
    rw [hrecord] at hnone
    cases hnone
  · intro at' h
    right
    unfold PairingRecord.forgottenAtMs at h ⊢
    rw [hrecord] at h
    exact hat at' h

theorem fate_certificates (r : PairingRecord E) (certificates : Certificates E) :
    Fate r { r with certificates := certificates } := ⟨rfl, id, fun _ h => .inr h⟩

section
variable (hE : E.Lawful)
include hE

theorem fate_confirmStorage (r : PairingRecord E) (active : E.ActivePairing) :
    Fate r (r.confirmStorage active).2 := by
  unfold PairingRecord.confirmStorage
  split
  next k hkeys =>
    split
    next k' hconfirm =>
      refine fate_held hkeys (hE.confirmed_pairId _ _ _ hconfirm) fun at' hat => ?_
      rw [hE.confirmed_forgotten _ _ _ hconfirm, hat]
    · exact fate_revokedKeys r false r.certificates
  · exact .refl r

theorem fate_forget (r : PairingRecord E) (atMs : Nat) : Fate r (r.forget atMs) := by
  unfold PairingRecord.forget
  split
  next k hkeys =>
    split
    next hnone =>
      refine fate_held hkeys (hE.forgotten_pairId k atMs) fun at' hat => ?_
      rw [hat] at hnone
      cases hnone
    · exact .refl r
  · exact .refl r

theorem fate_renamePeer (r : PairingRecord E) (name : E.DisplayName) :
    Fate r (r.renamePeer name).2 := by
  unfold PairingRecord.renamePeer
  split
  next k hkeys =>
    split
    next k' hrename =>
      refine fate_held hkeys (hE.renamed_pairId _ _ _ hrename) fun at' hat => ?_
      rw [hE.renamed_forgotten _ _ _ hrename, hat]
    · exact .refl r
  · exact .refl r

/-- **Every change moves a record along its fate.** -/
theorem Change.fate (r : PairingRecord E) (change : Change E) : Fate r (change.apply r) := by
  cases change with
  | confirmStorage active => exact fate_confirmStorage hE r active
  | forget atMs => exact fate_forget hE r atMs
  | revoke byPeer => exact fate_revokedKeys r byPeer _
  | renamePeer name => exact fate_renamePeer hE r name
  | rememberAuthentication c => exact fate_certificates r _
  | rememberSignature c => exact fate_certificates r _
  | rememberRoot c => exact fate_certificates r _
  | rememberIntermediate c => exact fate_certificates r _

/-- **So does the idle-expiry check**, whatever the store answers. -/
theorem sweep_fate {ε : Type} (r : PairingRecord E) (nowMs : Nat) (sessionEstablished : Bool)
    (store : PairingRecord E → Except ε Unit) : Fate r (r.sweep nowMs sessionEstablished store).2 := by
  unfold PairingRecord.sweep
  split
  · exact .refl r
  next k hkeys =>
    split
    · exact .refl r
    next outcome checked hcheck =>
      have hheld : Fate r { r with keys := .held checked } :=
        fate_held hkeys (hE.checked_pairId _ _ _ _ _ hcheck) (hE.checked_forgotten _ _ _ _ _ hcheck)
      split
      · exact .refl r
      · split
        · exact .refl r
        · split
          · exact .refl r
          · dsimp only
            split
            · exact hheld.trans (fate_revokedKeys _ false _)
            · exact hheld

end

/-! ## §4. A small engine

  An engine that can be run: its records are eighteen octets (the id, the role, whether the
  storage is confirmed) and the forgetting, its certificates their own fingerprints. -/

/-- A record of the small engine. -/
structure SmallRecord where
  octets : Bytes
  length_eq : octets.length = 18
  forgottenAtMs : Option Nat
  deriving DecidableEq

/-- An error of the small engine's codec. -/
inductive SmallError where
  | unsupportedVersion
  | oversized
  deriving Repr, DecidableEq

/-- The time of a forgetting takes one octet behind the others. -/
def SmallRecord.encode (k : SmallRecord) : Except SmallError Bytes :=
  match k.forgottenAtMs with
  | none => .ok k.octets
  | some at' => if at' < 256 then .ok (k.octets ++ [UInt8.ofNat at']) else .error .oversized

/-- The inverse of `SmallRecord.encode`. -/
def SmallRecord.decode (b : Bytes) : Except SmallError SmallRecord :=
  if h : b.length = 18 then .ok ⟨b, h, none⟩
  else if h : b.length = 19 then
    .ok ⟨b.take 18, by rw [List.length_take]; omega, some (b.getLast (by
      intro hb
      rw [hb] at h
      cases h)).toNat⟩
  else .error .unsupportedVersion

/-- The small engine. -/
def smallEngine : Engine where
  pairIdSize := 16
  PairRecord := SmallRecord
  ActivePairing := Unit
  CodecError := SmallError
  DisplayName := { text : Text // text ≠ [] }
  Certificate := { der : Bytes // der ≠ [] }
  Fingerprint := Bytes
  pairId k := ⟨k.octets.take 16, by rw [List.length_take, k.length_eq]; rfl⟩
  role k := if k.octets.getD 16 0 = 0 then .requester else .custodian
  peerDisplayName _ := ⟨['P'], List.cons_ne_nil _ _⟩
  isStorageConfirmed k := k.octets.getD 17 0 = 1
  forgottenAtMs k := k.forgottenAtMs
  forgotten k at' := { k with forgottenAtMs := some at' }
  recordPeerDisplayName _ _ := none
  confirm _ k := some ⟨k.octets.set 17 1, by rw [List.length_set, k.length_eq], k.forgottenAtMs⟩
  check k _ established := if established then some (.recorded, k) else none
  revocationNoticeExpired k nowMs := k.forgottenAtMs.any fun at' => 10000 ≤ nowMs - at'
  encodePairRecord := SmallRecord.encode
  decodePairRecord := SmallRecord.decode
  isUnsupportedVersion e := e = .unsupportedVersion
  parseDisplayName text := if h : text ≠ [] then some ⟨text, h⟩ else none
  displayNameText name := name.1
  fromDer der := if h : der ≠ [] then some ⟨der, h⟩ else none
  asDer certificate := certificate.1
  fingerprint certificate := certificate.1
  identityOfferGraceMs := 60000
  decEqFingerprint := inferInstance

theorem smallEngine_lawful : smallEngine.Lawful where
  forgotten_pairId _ _ := rfl
  forgotten_at _ _ := rfl
  renamed_pairId _ _ _ h := by cases h
  renamed_forgotten _ _ _ h := by cases h
  confirmed_pairId _ k k' h := by
    injection h with h
    have htake : (k.octets.set 17 1).take 16 = k.octets.take 16 := List.take_set_of_le (by decide)
    rw [← h]
    show (⟨(k.octets.set 17 1).take 16, _⟩ : PairId 16) = ⟨k.octets.take 16, _⟩
    rw [PairId.mk.injEq]
    exact htake
  confirmed_forgotten _ k k' h := by
    injection h with h
    rw [← h]
    rfl
  checked_pairId k _ established outcome k' h := by
    cases established with
    | false => cases h
    | true =>
      injection h with h
      rw [(Prod.mk.inj h).2]
  checked_forgotten k _ established outcome k' h at' hat := by
    cases established with
    | false => cases h
    | true =>
      injection h with h
      rw [← (Prod.mk.inj h).2]
      exact hat

/-- A requester's record of the small engine whose storage the peer confirmed. -/
def smallRecord (id : UInt8) : PairingRecord smallEngine :=
  .new (E := smallEngine) ⟨List.replicate 16 id ++ [0, 1], rfl, none⟩ []

end RefineId.Pairing
