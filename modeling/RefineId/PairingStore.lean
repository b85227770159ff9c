/-
  RefineId.PairingStore — the pairing store over whole runs.
  ════════════════════════════════════════════════════════════════════════════

  `crates/refineid-rapp-core/src/store.rs` and the parts of `engine.rs` that write to the
  store: records come and go, the user forgets pairings, peers revoke them, the idle check
  expires them, and sessions record which card they heard.  The in-memory store is
  modelled; a run is any sequence of these operations.

  Main results:
    • `step_record`        : what an operation can make of one pairing's record.
    • `step_pairIds_nodup` : pair ids stay unique.
    • `lifecycle_one_way`  : a pairing never comes back without a fresh record.
-/
import RefineId.PairingRecord
import RefineId.Lib.Run

namespace RefineId.Pairing

open Lib

variable {E : Engine}

/-! ## §1. Sightings -/

/-- `CardSighting`. -/
structure CardSighting (E : Engine) where
  fingerprint : E.Fingerprint
  atMs : Nat

/-- `CardSighting::stands_for`: the sighting names the certificate's card, and lies less
    than the grace behind or ahead of now. -/
def CardSighting.standsFor (sighting : CardSighting E) (certificate : E.Certificate)
    (nowMs : Nat) : Bool :=
  have := E.decEqFingerprint
  let age := nowMs - sighting.atMs
  let ahead := sighting.atMs - nowMs
  E.fingerprint certificate = sighting.fingerprint && age < E.identityOfferGraceMs &&
    ahead < E.identityOfferGraceMs

/-! ## §2. The store -/

/-- `MemoryPairingStore`. -/
structure MemoryPairingStore (E : Engine) where
  records : List (PairingRecord E) := []
  sightings : List (PairId E.pairIdSize × CardSighting E) := []

/-- `StoreError`. -/
inductive StoreError where
  | unknown
  | writeRefused
  | unreadable
  deriving Repr, DecidableEq

namespace MemoryPairingStore

/-- `insert`: in place of a record with its identifier. -/
def insert (s : MemoryPairingStore E) (record : PairingRecord E) : MemoryPairingStore E :=
  { s with records := (s.records.filter fun entry => entry.pairId ≠ record.pairId) ++ [record] }

/-- `get`. -/
def get (s : MemoryPairingStore E) (pairId : PairId E.pairIdSize) : Option (PairingRecord E) :=
  s.records.find? fun entry => entry.pairId = pairId

/-- Apply `f` to the first entry of a pairing. -/
def modifyFirst (pairId : PairId E.pairIdSize) (f : PairingRecord E → PairingRecord E) :
    List (PairingRecord E) → List (PairingRecord E)
  | [] => []
  | entry :: rest =>
    if entry.pairId = pairId then f entry :: rest else entry :: modifyFirst pairId f rest

/-- `update`. -/
def update (s : MemoryPairingStore E) (pairId : PairId E.pairIdSize)
    (change : PairingRecord E → PairingRecord E) : Except StoreError (MemoryPairingStore E) :=
  match s.get pairId with
  | none => .error .unknown
  | some _ => .ok { s with records := modifyFirst pairId change s.records }

/-- `remove`: the record, then its card sighting. -/
def remove (s : MemoryPairingStore E) (pairId : PairId E.pairIdSize) :
    Except StoreError (MemoryPairingStore E) :=
  let records := s.records.filter fun entry => entry.pairId ≠ pairId
  if records.length = s.records.length then .error .unknown
  else .ok ⟨records, s.sightings.filter fun entry => entry.1 ≠ pairId⟩

/-- `pair_ids`: newest first. -/
def pairIds (s : MemoryPairingStore E) : List (PairId E.pairIdSize) :=
  s.records.reverse.map PairingRecord.pairId

/-- `card_sighting`. -/
def cardSighting (s : MemoryPairingStore E) (pairId : PairId E.pairIdSize) :
    Option (CardSighting E) :=
  (s.sightings.find? fun entry => entry.1 = pairId).map Prod.snd

/-- `record_card_sighting`. -/
def recordCardSighting (s : MemoryPairingStore E) (pairId : PairId E.pairIdSize)
    (sighting : CardSighting E) : MemoryPairingStore E :=
  { s with sightings := (s.sightings.filter fun entry => entry.1 ≠ pairId) ++ [(pairId, sighting)] }

/-- `drop_card_sighting`. -/
def dropCardSighting (s : MemoryPairingStore E) (pairId : PairId E.pairIdSize) :
    MemoryPairingStore E :=
  { s with sightings := s.sightings.filter fun entry => entry.1 ≠ pairId }

/-- `sweep`: the in-memory store accepts every write. -/
def sweep (s : MemoryPairingStore E) (pairId : PairId E.pairIdSize) (nowMs : Nat)
    (sessionEstablished : Bool) :
    Except (PairingRecord.RecordStoreError E StoreError) SweepOutcome × MemoryPairingStore E :=
  let swept (record : PairingRecord E) :=
    record.sweep nowMs sessionEstablished fun _ => (.ok () : Except StoreError Unit)
  ((match s.get pairId with
    | none => .error (.store .unknown)
    | some record => (swept record).1),
    { s with records := modifyFirst pairId (fun record => (swept record).2) s.records })

end MemoryPairingStore

/-- A refused operation changes nothing. -/
def orUnchanged (s : MemoryPairingStore E) (result : Except StoreError (MemoryPairingStore E)) :
    MemoryPairingStore E :=
  match result with
  | .ok s' => s'
  | .error _ => s

/-- `offered_certificate`. -/
def offeredCertificate (s : MemoryPairingStore E) (pairId : PairId E.pairIdSize) (nowMs : Nat) :
    Option E.Certificate := do
  let record ← (s.get pairId).filter PairingRecord.serves
  let certificate ← record.certificates.authentication
  let _ ← (s.cardSighting pairId).filter fun sighting => sighting.standsFor certificate nowMs
  return certificate

/-- `revoke_pairing`. -/
def revokePairing (s : MemoryPairingStore E) (pairId : PairId E.pairIdSize) (byPeer : Bool) :
    Except StoreError (MemoryPairingStore E) :=
  s.update pairId fun record => record.revoke byPeer

/-- `forget_pairing`. -/
def forgetPairing (s : MemoryPairingStore E) (pairId : PairId E.pairIdSize) (nowMs : Nat) :
    Except StoreError (MemoryPairingStore E) :=
  match s.get pairId with
  | none => .error .unknown
  | some record =>
    match record.state with
    | .unconfirmed | .revoked _ => s.remove pairId
    | .forgotten => .ok s
    | .serving => s.update pairId fun record => record.forget nowMs

/-- `remove_unconfirmed`. -/
def removeUnconfirmed (s : MemoryPairingStore E) : List (PairId E.pairIdSize) × MemoryPairingStore E :=
  let unconfirmed := s.pairIds.filter fun pairId =>
    (s.get pairId).any fun record => record.state = .unconfirmed
  (unconfirmed, unconfirmed.foldl (fun s pairId => orUnchanged s (s.remove pairId)) s)

/-- `expire_revocation_notices`. -/
def expireRevocationNotices (s : MemoryPairingStore E) (nowMs : Nat) :
    List (PairId E.pairIdSize) × MemoryPairingStore E :=
  let expired := s.pairIds.filter fun pairId =>
    (s.get pairId).any fun record =>
      record.pairRecord.any fun keys => E.revocationNoticeExpired keys nowMs
  (expired, expired.foldl (fun s pairId => orUnchanged s (revokePairing s pairId false)) s)

/-- The loop of `sweep_pairings`: the pairings that expired, and the store. -/
def sweepEach (nowMs : Nat) (inSession : PairId E.pairIdSize → Bool) :
    List (PairId E.pairIdSize) → MemoryPairingStore E → List (PairId E.pairIdSize) × MemoryPairingStore E
  | [], s => ([], s)
  | pairId :: rest, s =>
    let (outcome, swept) := s.sweep pairId nowMs (inSession pairId)
    let (expired, final) := sweepEach nowMs inSession rest swept
    match outcome with
    | .ok .expired => (pairId :: expired, final)
    -- a refused change is reported and checked again on the next sweep
    | .ok .recorded | .ok .kept | .error _ => (expired, final)

/-- `sweep_pairings`. -/
def sweepPairings (s : MemoryPairingStore E) (nowMs : Nat)
    (inSession : PairId E.pairIdSize → Bool) : List (PairId E.pairIdSize) × MemoryPairingStore E :=
  sweepEach nowMs inSession s.pairIds s

/-! ## §3. What sessions write -/

/-- `CloseReason`. -/
inductive CloseReason where
  | normal
  | complete
  | userDisconnect
  | policy
  | protocolViolation
  | shutdown
  | pairingRevoked
  | serviceWithdrawn
  | cardUnavailable
  deriving Repr, DecidableEq

/-- `Requester::apply_peer_close`. -/
def applyPeerClose (s : MemoryPairingStore E) (pairId : PairId E.pairIdSize) (reason : CloseReason) :
    MemoryPairingStore E :=
  match reason with
  | .pairingRevoked => orUnchanged s (revokePairing s pairId true)
  | .serviceWithdrawn | .cardUnavailable => s.dropCardSighting pairId
  | .normal | .complete | .userDisconnect | .policy | .protocolViolation | .shutdown => s

/-- What `record_sighting` reads of a session: its pairing, the card it last heard
    present, whether it has ended, and when it last recorded a sighting. -/
structure SessionCard (E : Engine) where
  pairId : PairId E.pairIdSize
  present : Option E.Fingerprint
  ended : Bool
  sightedAtMs : Option Nat

/-- `SIGHTING_REFRESH_MS`. -/
def sightingRefreshMs : Nat := 10000

/-- `Requester::record_sighting`, on the continuous clock and the wall clock. -/
def recordSighting (s : MemoryPairingStore E) (session : SessionCard E) (nowMs unixMs : Nat) :
    SessionCard E × MemoryPairingStore E :=
  match session.present with
  | none => (session, s)
  | some fingerprint =>
    if session.ended then (session, s)
    else if session.sightedAtMs.any fun atMs => nowMs - atMs < sightingRefreshMs then (session, s)
    else ({ session with sightedAtMs := some nowMs },
      s.recordCardSighting session.pairId ⟨fingerprint, unixMs⟩)

/-! ## §4. Runs -/

/-- The operations on the store. -/
inductive Op (E : Engine) where
  | insert (record : PairingRecord E)
  | update (pairId : PairId E.pairIdSize) (change : Change E)
  | remove (pairId : PairId E.pairIdSize)
  | forgetPairing (pairId : PairId E.pairIdSize) (nowMs : Nat)
  | removeUnconfirmed
  | expireRevocationNotices (nowMs : Nat)
  | sweep (pairId : PairId E.pairIdSize) (nowMs : Nat) (sessionEstablished : Bool)
  | sweepPairings (nowMs : Nat) (inSession : PairId E.pairIdSize → Bool)
  | dropCardSighting (pairId : PairId E.pairIdSize)
  | peerClose (pairId : PairId E.pairIdSize) (reason : CloseReason)
  | recordSighting (session : SessionCard E) (nowMs unixMs : Nat)

/-- The store after one operation.  `revoke_pairing` and the confirmation of a storage are
    updates. -/
def step (s : MemoryPairingStore E) : Op E → MemoryPairingStore E
  | .insert record => s.insert record
  | .update pairId change => orUnchanged s (s.update pairId change.apply)
  | .remove pairId => orUnchanged s (s.remove pairId)
  | .forgetPairing pairId nowMs => orUnchanged s (forgetPairing s pairId nowMs)
  | .removeUnconfirmed => (removeUnconfirmed s).2
  | .expireRevocationNotices nowMs => (expireRevocationNotices s nowMs).2
  | .sweep pairId nowMs established => (s.sweep pairId nowMs established).2
  | .sweepPairings nowMs inSession => (sweepPairings s nowMs inSession).2
  | .dropCardSighting pairId => s.dropCardSighting pairId
  | .peerClose pairId reason => applyPeerClose s pairId reason
  | .recordSighting session nowMs unixMs => (recordSighting s session nowMs unixMs).2

/-- The store after a run from an empty one. -/
def after (ops : List (Op E)) : MemoryPairingStore E := run step {} ops

/-! ## §5. One pairing's record -/

/-- A list without the entries of another pairing has the same first entry of this one. -/
theorem find?_filter_ne (l : List (PairingRecord E)) {p q : PairId E.pairIdSize} (h : p ≠ q) :
    (l.filter fun entry => entry.pairId ≠ q).find? (fun entry => entry.pairId = p) =
      l.find? fun entry => entry.pairId = p := by
  induction l with
  | nil => rfl
  | cons entry l ih =>
    by_cases hq : entry.pairId = q
    · have hp : ¬ entry.pairId = p := fun hp => h (hp.symm.trans hq)
      rw [List.filter_cons_of_neg (by simpa using hq), ih, List.find?_cons_of_neg (by simpa using hp)]
    · rw [List.filter_cons_of_pos (by simpa using hq), List.find?_cons, List.find?_cons, ih]

theorem get_insert_of_ne (s : MemoryPairingStore E) (record : PairingRecord E)
    {p : PairId E.pairIdSize} (h : record.pairId ≠ p) : (s.insert record).get p = s.get p := by
  unfold MemoryPairingStore.get MemoryPairingStore.insert
  rw [List.find?_append, find?_filter_ne _ (Ne.symm h), List.find?_cons_of_neg (by simpa using h)]
  simp

theorem find?_modifyFirst {f : PairingRecord E → PairingRecord E}
    (hf : ∀ r, (f r).pairId = r.pairId) (p q : PairId E.pairIdSize) (l : List (PairingRecord E)) :
    (MemoryPairingStore.modifyFirst q f l).find? (fun entry => entry.pairId = p) =
      (l.find? fun entry => entry.pairId = p).map fun r => if p = q then f r else r := by
  induction l with
  | nil => rfl
  | cons entry l ih =>
    unfold MemoryPairingStore.modifyFirst
    by_cases hq : entry.pairId = q
    · rw [if_pos hq]
      by_cases hp : entry.pairId = p
      · have hpq : p = q := hp.symm.trans hq
        rw [List.find?_cons_of_pos (by simpa [hf] using hp), List.find?_cons_of_pos (by simpa using hp)]
        simp [hpq]
      · have hpq : ¬ p = q := fun hpq => hp (hq.trans hpq.symm)
        rw [List.find?_cons_of_neg (by simpa [hf] using hp), List.find?_cons_of_neg (by simpa using hp)]
        simp [hpq]
    · rw [if_neg hq]
      by_cases hp : entry.pairId = p
      · have hpq : ¬ p = q := fun hpq => hq (hp.trans hpq)
        rw [List.find?_cons_of_pos (by simpa using hp), List.find?_cons_of_pos (by simpa using hp)]
        simp [hpq]
      · rw [List.find?_cons_of_neg (by simpa using hp), List.find?_cons_of_neg (by simpa using hp), ih]

theorem pairIds_modifyFirst {f : PairingRecord E → PairingRecord E}
    (hf : ∀ r, (f r).pairId = r.pairId) (q : PairId E.pairIdSize) (l : List (PairingRecord E)) :
    (MemoryPairingStore.modifyFirst q f l).map PairingRecord.pairId =
      l.map PairingRecord.pairId := by
  induction l with
  | nil => rfl
  | cons entry l ih =>
    unfold MemoryPairingStore.modifyFirst
    split
    · rw [List.map_cons, List.map_cons, hf]
    · rw [List.map_cons, List.map_cons, ih]

/-- What became of one pairing's record: it is gone, or moved along its fate. -/
def Course (o o' : Option (PairingRecord E)) : Prop :=
  ∀ r', o' = some r' → ∃ r, o = some r ∧ Fate r r'

theorem Course.refl (o : Option (PairingRecord E)) : Course o o := fun r' h => ⟨r', h, .refl r'⟩

theorem Course.trans {o o' o'' : Option (PairingRecord E)} (h : Course o o') (h' : Course o' o'') :
    Course o o'' := by
  intro r'' hr''
  obtain ⟨r', hr', hfate'⟩ := h' r'' hr''
  obtain ⟨r, hr, hfate⟩ := h r' hr'
  exact ⟨r, hr, hfate.trans hfate'⟩

theorem Course.of_eq {o o' : Option (PairingRecord E)} (h : o' = o) : Course o o' := by
  rw [h]
  exact .refl o

/-- A change of the record at hand. -/
theorem course_map {f : PairingRecord E → PairingRecord E} (hf : ∀ r, Fate r (f r))
    (o : Option (PairingRecord E)) : Course o (o.map f) := by
  intro r' h
  obtain ⟨r, hr, rfl⟩ := Option.map_eq_some_iff.mp h
  exact ⟨r, hr, hf r⟩

/-- What an operation on the store is held to for one pairing: its record keeps to its
    course, and ids stay unique. -/
structure Keeps (p : PairId E.pairIdSize) (s s' : MemoryPairingStore E) : Prop where
  course : Course (s.get p) (s'.get p)
  unique : (s.records.map PairingRecord.pairId).Nodup →
    (s'.records.map PairingRecord.pairId).Nodup

theorem Keeps.refl (p : PairId E.pairIdSize) (s : MemoryPairingStore E) : Keeps p s s :=
  ⟨.refl _, id⟩

theorem Keeps.trans {p : PairId E.pairIdSize} {s s' s'' : MemoryPairingStore E} (h : Keeps p s s')
    (h' : Keeps p s' s'') : Keeps p s s'' :=
  ⟨h.course.trans h'.course, fun hs => h'.unique (h.unique hs)⟩

theorem Keeps.of_records {p : PairId E.pairIdSize} {s s' : MemoryPairingStore E}
    (h : s'.records = s.records) : Keeps p s s' := by
  refine ⟨.of_eq ?_, ?_⟩
  · unfold MemoryPairingStore.get
    rw [h]
  · rw [h]
    exact id

theorem Keeps.orUnchanged {p : PairId E.pairIdSize} {s : MemoryPairingStore E}
    {result : Except StoreError (MemoryPairingStore E)} (h : ∀ s', result = .ok s' → Keeps p s s') :
    Keeps p s (orUnchanged s result) := by
  cases result with
  | error e => exact .refl p s
  | ok s' => exact h s' rfl

theorem Keeps.foldl {α : Type} {p : PairId E.pairIdSize}
    {f : MemoryPairingStore E → α → MemoryPairingStore E} (h : ∀ s a, Keeps p s (f s a))
    (s : MemoryPairingStore E) (as : List α) : Keeps p s (as.foldl f s) := by
  induction as generalizing s with
  | nil => exact .refl p s
  | cons a as ih => exact (h s a).trans (ih (f s a))

/-- Changing the first entry of a pairing along its fate. -/
theorem keeps_modifyFirst {f : PairingRecord E → PairingRecord E} (hf : ∀ r, Fate r (f r))
    (p q : PairId E.pairIdSize) (s : MemoryPairingStore E) :
    Keeps p s { s with records := MemoryPairingStore.modifyFirst q f s.records } := by
  have hid : ∀ r, (f r).pairId = r.pairId := fun r => (hf r).pairId
  refine ⟨?_, ?_⟩
  · unfold MemoryPairingStore.get
    rw [find?_modifyFirst hid]
    refine course_map (fun r => ?_) _
    split
    · exact hf r
    · exact .refl r
  · rw [pairIds_modifyFirst hid]
    exact id

theorem keeps_update {f : PairingRecord E → PairingRecord E} (hf : ∀ r, Fate r (f r))
    (p q : PairId E.pairIdSize) {s s' : MemoryPairingStore E} (h : s.update q f = .ok s') :
    Keeps p s s' := by
  unfold MemoryPairingStore.update at h
  split at h
  · cases h
  · injection h with h
    rw [← h]
    exact keeps_modifyFirst hf p q s

theorem keeps_remove (p q : PairId E.pairIdSize) {s s' : MemoryPairingStore E}
    (h : s.remove q = .ok s') : Keeps p s s' := by
  unfold MemoryPairingStore.remove at h
  dsimp only at h
  split at h
  · cases h
  · injection h with h
    rw [← h]
    refine ⟨?_, ?_⟩
    · by_cases hpq : p = q
      · -- nothing of the pairing is left
        intro r' hr'
        unfold MemoryPairingStore.get at hr'
        have hmem := List.mem_of_find?_eq_some hr'
        have hid := List.find?_some hr'
        have hne := (List.mem_filter.mp hmem).2
        simp only [decide_eq_true_eq] at hid hne
        exact absurd (hid.trans hpq) hne
      · unfold MemoryPairingStore.get
        rw [find?_filter_ne _ hpq]
        exact .refl _
    · intro hs
      exact (List.filter_sublist.map _).nodup hs

section
variable (hE : E.Lawful)
include hE

theorem keeps_revokePairing (p q : PairId E.pairIdSize) (byPeer : Bool) {s s' : MemoryPairingStore E}
    (h : revokePairing s q byPeer = .ok s') : Keeps p s s' :=
  keeps_update (fun r => Change.fate hE r (.revoke byPeer)) p q h

theorem keeps_forgetPairing (p q : PairId E.pairIdSize) (nowMs : Nat) {s s' : MemoryPairingStore E}
    (h : forgetPairing s q nowMs = .ok s') : Keeps p s s' := by
  unfold forgetPairing at h
  split at h
  · cases h
  · split at h
    · exact keeps_remove p q h
    · exact keeps_remove p q h
    · injection h with h
      rw [h]
      exact .refl p s'
    · exact keeps_update (fun r => Change.fate hE r (.forget nowMs)) p q h

theorem keeps_sweep (p q : PairId E.pairIdSize) (nowMs : Nat) (established : Bool)
    (s : MemoryPairingStore E) : Keeps p s (s.sweep q nowMs established).2 :=
  keeps_modifyFirst (fun r => sweep_fate hE r nowMs established _) p q s

theorem keeps_peerClose (p q : PairId E.pairIdSize) (reason : CloseReason)
    (s : MemoryPairingStore E) : Keeps p s (applyPeerClose s q reason) := by
  cases reason with
  | pairingRevoked => exact .orUnchanged fun _ h => keeps_revokePairing hE p q true h
  | serviceWithdrawn => exact .of_records rfl
  | cardUnavailable => exact .of_records rfl
  | normal => exact .refl p s
  | complete => exact .refl p s
  | userDisconnect => exact .refl p s
  | policy => exact .refl p s
  | protocolViolation => exact .refl p s
  | shutdown => exact .refl p s

end

/-- Whether the operation stores a fresh record for `p`. -/
def Op.insertsFor (p : PairId E.pairIdSize) : Op E → Bool
  | .insert record => record.pairId = p
  | _ => false

/-- A fresh record displaces the one with its id. -/
theorem nodup_insert (s : MemoryPairingStore E) (record : PairingRecord E)
    (hs : (s.records.map PairingRecord.pairId).Nodup) :
    ((s.insert record).records.map PairingRecord.pairId).Nodup := by
  unfold MemoryPairingStore.insert
  rw [List.map_append, List.map_singleton, List.nodup_append]
  refine ⟨(List.filter_sublist.map _).nodup hs, List.nodup_singleton _, ?_⟩
  intro q hq q' hq' heq
  obtain ⟨entry, hentry, hid⟩ := List.mem_map.mp hq
  have hne := (List.mem_filter.mp hentry).2
  rw [decide_eq_true_eq] at hne
  exact hne (hid.trans (heq.trans (List.mem_singleton.mp hq')))

theorem keeps_insert (s : MemoryPairingStore E) (record : PairingRecord E) {p : PairId E.pairIdSize}
    (h : record.pairId ≠ p) : Keeps p s (s.insert record) :=
  ⟨.of_eq (get_insert_of_ne s record h), nodup_insert s record⟩

section
variable (hE : E.Lawful)
include hE

theorem keeps_sweepEach (p : PairId E.pairIdSize) (nowMs : Nat)
    (inSession : PairId E.pairIdSize → Bool) (ps : List (PairId E.pairIdSize))
    (s : MemoryPairingStore E) : Keeps p s (sweepEach nowMs inSession ps s).2 := by
  induction ps generalizing s with
  | nil => exact .refl p s
  | cons q ps ih =>
    have hswept := (keeps_sweep hE p q nowMs (inSession q) s).trans (ih _)
    unfold sweepEach
    dsimp only
    split <;> exact hswept

/-- **What an operation can make of a pairing it stores no fresh record for.** -/
theorem step_record (p : PairId E.pairIdSize) (s : MemoryPairingStore E) (op : Op E)
    (h : op.insertsFor p = false) : Keeps p s (step s op) := by
  cases op with
  | insert record => exact keeps_insert s record (of_decide_eq_false h)
  | update q change => exact .orUnchanged fun _ h => keeps_update (Change.fate hE · change) p q h
  | remove q => exact .orUnchanged fun _ h => keeps_remove p q h
  | forgetPairing q nowMs => exact .orUnchanged fun _ h => keeps_forgetPairing hE p q nowMs h
  | removeUnconfirmed =>
    exact .foldl (fun s q => .orUnchanged fun _ h => keeps_remove p q h) s _
  | expireRevocationNotices nowMs =>
    exact .foldl (fun s q => .orUnchanged fun _ h => keeps_revokePairing hE p q false h) s _
  | sweep q nowMs established => exact keeps_sweep hE p q nowMs established s
  | sweepPairings nowMs inSession => exact keeps_sweepEach hE p nowMs inSession _ s
  | dropCardSighting q => exact .of_records rfl
  | peerClose q reason => exact keeps_peerClose hE p q reason s
  | recordSighting session nowMs unixMs =>
    refine .of_records ?_
    show (recordSighting s session nowMs unixMs).2.records = s.records
    unfold recordSighting
    repeat' split
    all_goals rfl

/-- **Ids stay unique**, whatever the operation. -/
theorem step_pairIds_nodup (s : MemoryPairingStore E) (op : Op E)
    (hs : (s.records.map PairingRecord.pairId).Nodup) :
    ((step s op).records.map PairingRecord.pairId).Nodup := by
  cases op with
  | insert record => exact nodup_insert s record hs
  -- no other operation inserts for any pairing at all
  | _ => exact (step_record hE default s _ rfl).unique hs

/-- Over a run that stores no fresh record for the pairing. -/
theorem run_record (p : PairId E.pairIdSize) (s : MemoryPairingStore E) (ops : List (Op E))
    (h : ∀ op ∈ ops, op.insertsFor p = false) : Keeps p s (run step s ops) := by
  induction ops generalizing s with
  | nil => exact .refl p s
  | cons op ops ih =>
    have hstep := step_record hE p s op (h op (List.mem_cons_self ..))
    exact hstep.trans (ih _ fun op' hop' => h op' (List.mem_cons_of_mem _ hop'))

theorem after_pairIds_nodup (ops : List (Op E)) :
    ((after ops).records.map PairingRecord.pairId).Nodup := by
  have hempty : (({} : MemoryPairingStore E).records.map PairingRecord.pairId).Nodup :=
    List.nodup_nil
  exact run_invariant (step_pairIds_nodup hE) hempty ops

end

/-- A record that has been forgotten and keeps its keys does not serve. -/
theorem forgotten_state {r : PairingRecord E} {at' : Nat} (h : r.forgottenAtMs = some at') :
    r.state = .forgotten := by
  unfold PairingRecord.forgottenAtMs PairingRecord.pairRecord at h
  unfold PairingRecord.state
  split at h
  next record hkeys =>
    rw [hkeys]
    dsimp only [Option.bind] at h ⊢
    rw [h]
  · cases h

theorem revoked_state {r : PairingRecord E} (h : r.pairRecord = none) :
    ∃ byPeer, r.state = .revoked byPeer := by
  unfold PairingRecord.pairRecord at h
  split at h
  · cases h
  next _ byPeer _ hkeys =>
    refine ⟨byPeer, ?_⟩
    unfold PairingRecord.state
    rw [hkeys]

theorem state_revoked {r : PairingRecord E} {byPeer : Bool} (h : r.state = .revoked byPeer) :
    r.pairRecord = none := by
  unfold PairingRecord.state at h
  unfold PairingRecord.pairRecord
  split at h
  next _ _ _ hkeys => rw [hkeys]
  · repeat' split at h
    all_goals cases h

theorem state_forgotten {r : PairingRecord E} (h : r.state = .forgotten) :
    ∃ at', r.forgottenAtMs = some at' := by
  unfold PairingRecord.state at h
  unfold PairingRecord.forgottenAtMs PairingRecord.pairRecord
  split at h
  · cases h
  next record hkeys =>
    rw [hkeys]
    split at h
    next at' hat => exact ⟨at', hat⟩
    · split at h <;> cases h

/-- **A pairing's life is one-way.**  Over any operations, however the store got where it is,
    that store no fresh record for the pairing: a revoked record never holds keys again; a
    forgotten one never serves again, and for as long as it holds keys it keeps the time of
    its first forgetting.  Ids are unique throughout. -/
theorem lifecycle_one_way (hE : E.Lawful) (p : PairId E.pairIdSize) (ops later : List (Op E))
    (hlater : ∀ op ∈ later, op.insertsFor p = false) :
    (∀ r byPeer r', (after ops).get p = some r → r.state = .revoked byPeer →
      (after (ops ++ later)).get p = some r' →
      r'.pairRecord = none ∧ ∃ byPeer', r'.state = .revoked byPeer') ∧
    (∀ r r', (after ops).get p = some r → r.state = .forgotten →
      (after (ops ++ later)).get p = some r' →
      r'.serves = false ∧ ∃ at', r.forgottenAtMs = some at' ∧
        (r'.pairRecord = none ∨ r'.forgottenAtMs = some at')) ∧
    (after ops).pairIds.Nodup ∧ (after (ops ++ later)).pairIds.Nodup := by
  have hrun : Course ((after ops).get p) ((after (ops ++ later)).get p) := by
    unfold after
    rw [run_append]
    exact (run_record hE p _ later hlater).course
  have hnodup : ∀ all : List (Op E), (after all).pairIds.Nodup := by
    intro all
    unfold MemoryPairingStore.pairIds
    rw [List.map_reverse, List.nodup_reverse]
    exact after_pairIds_nodup hE all
  refine ⟨?_, ?_, hnodup ops, hnodup (ops ++ later)⟩
  · intro r byPeer r' hr hstate hr'
    obtain ⟨r₀, hr₀, hfate⟩ := hrun r' hr'
    obtain rfl : r₀ = r := Option.some.inj (hr₀.symm.trans hr)
    have hnone := hfate.revoked (state_revoked hstate)
    exact ⟨hnone, revoked_state hnone⟩
  · intro r r' hr hstate hr'
    obtain ⟨r₀, hr₀, hfate⟩ := hrun r' hr'
    obtain rfl : r₀ = r := Option.some.inj (hr₀.symm.trans hr)
    obtain ⟨at', hat⟩ := state_forgotten hstate
    have hend := hfate.forgotten at' hat
    refine ⟨?_, at', hat, hend⟩
    unfold PairingRecord.serves
    rcases hend with hnone | hat'
    · obtain ⟨byPeer, hrevoked⟩ := revoked_state hnone
      rw [hrevoked]
      rfl
    · rw [forgotten_state hat']
      rfl

/-- A pairing forgotten at 5 and, after more of everything, forgotten again at 200. -/
def forgottenOps : List (Op smallEngine) :=
  [.insert (smallRecord 1), .forgetPairing (smallRecord 1).pairId 5]

/-- What follows the forgetting. -/
def laterOps : List (Op smallEngine) :=
  [.insert (smallRecord 2), .update (smallRecord 1).pairId (.confirmStorage ()),
    .sweep (smallRecord 1).pairId 100 true, .forgetPairing (smallRecord 1).pairId 200]

theorem lifecycle_one_way_forgotten :
    ∃ r', (after (forgottenOps ++ laterOps)).get (smallRecord 1).pairId = some r' ∧
      r'.serves = false :=
  ⟨_, rfl, ((lifecycle_one_way smallEngine_lawful (smallRecord 1).pairId forgottenOps laterOps
    (by decide)).2.1 _ _ rfl rfl rfl).1⟩

/-- The peer closes a forgotten pairing as revoked: its record has no keys from then on, and
    with them goes the time of its forgetting. -/
theorem revoked_loses_forgetting :
    ¬ ∀ (p : PairId smallEngine.pairIdSize) (ops later : List (Op smallEngine))
      (r r' : PairingRecord smallEngine), (∀ op ∈ later, op.insertsFor p = false) →
        (after ops).get p = some r → r.state = .forgotten →
        (after (ops ++ later)).get p = some r' → r'.forgottenAtMs = r.forgottenAtMs := by
  intro h
  have htime := h (smallRecord 1).pairId forgottenOps
    [.peerClose (smallRecord 1).pairId .pairingRevoked] _ _ (by decide) rfl rfl rfl
  exact absurd htime (by decide)

end RefineId.Pairing
