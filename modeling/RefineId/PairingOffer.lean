/-
  RefineId.PairingOffer — whose certificate is offered, over whole runs.
  ════════════════════════════════════════════════════════════════════════════

  A pairing's certificate is offered to local programs while the pairing serves and a
  session has lately heard that certificate's card.  The record, the sighting and the clock
  are written by different paths in any order; here the sighting in the store is read back
  from the run that led to it, and the offer from record and history.

  Main results:
    • `cardSighting_step` : what one operation makes of a pairing's sighting.
    • `sighting_history`  : the sighting in the store is the last one not dropped since.
    • `offer_law`         : what is offered, by record and history.
-/
import RefineId.PairingStore

namespace RefineId.Pairing

open Lib

variable {E : Engine}

/-! ## §1. The sighting in the store -/

/-- The sighting a session records, if it records one. -/
def SessionCard.sighting (session : SessionCard E) (nowMs unixMs : Nat) : Option (CardSighting E) :=
  if session.ended then none
  else if session.sightedAtMs.any fun atMs => nowMs - atMs < sightingRefreshMs then none
  else session.present.map fun fingerprint => ⟨fingerprint, unixMs⟩

/-- The sighting an operation records for `p`. -/
def Op.sights (p : PairId E.pairIdSize) : Op E → Option (CardSighting E)
  | .recordSighting session nowMs unixMs =>
    if session.pairId = p then session.sighting nowMs unixMs else none
  | _ => none

/-- Whether an operation drops the sighting of `p`: when the peer withdraws its service or
    its card, and when the record is removed. -/
def Op.drops (s : MemoryPairingStore E) (p : PairId E.pairIdSize) : Op E → Bool
  | .remove q => q = p && (s.get p).isSome
  | .forgetPairing q _ => q = p && (s.get p).any fun record =>
      match record.state with
      | .unconfirmed | .revoked _ => true
      | .serving | .forgotten => false
  | .removeUnconfirmed => (s.get p).any fun record => record.state = .unconfirmed
  | .dropCardSighting q => q = p
  | .peerClose q reason => q = p && (reason = .serviceWithdrawn || reason = .cardUnavailable)
  | _ => false

theorem cardSighting_dropCardSighting (s : MemoryPairingStore E) (p q : PairId E.pairIdSize) :
    (s.dropCardSighting q).cardSighting p = if q = p then none else s.cardSighting p := by
  unfold MemoryPairingStore.cardSighting MemoryPairingStore.dropCardSighting
  split
  next hqp =>
    subst hqp
    rw [List.find?_eq_none.mpr]
    · rfl
    · intro entry hentry
      have hne := (List.mem_filter.mp hentry).2
      simpa using hne
  next hqp =>
    congr 1
    rw [List.find?_filter]
    congr 1
    funext entry
    by_cases hp : entry.1 = p
    · have hq : p ≠ q := fun hq => hqp hq.symm
      simp [hp, hq]
    · simp [hp]

theorem cardSighting_recordCardSighting (s : MemoryPairingStore E) (p q : PairId E.pairIdSize)
    (sighting : CardSighting E) : (s.recordCardSighting q sighting).cardSighting p =
      if q = p then some sighting else s.cardSighting p := by
  have hdrop := cardSighting_dropCardSighting s p q
  unfold MemoryPairingStore.cardSighting MemoryPairingStore.dropCardSighting at hdrop
  unfold MemoryPairingStore.cardSighting MemoryPairingStore.recordCardSighting
  rw [List.find?_append]
  split at hdrop
  next hqp =>
    rw [Option.map_eq_none_iff.mp hdrop]
    simp [hqp]
  next hqp =>
    rw [List.find?_cons_of_neg (by simpa using hqp), if_neg hqp]
    simpa using hdrop

/-- Only a record that is there can be removed. -/
theorem remove_eq (s : MemoryPairingStore E) (q : PairId E.pairIdSize) :
    s.remove q = if (s.get q).isSome then
      .ok ⟨s.records.filter fun entry => entry.pairId ≠ q, (s.dropCardSighting q).sightings⟩
    else .error .unknown := by
  have hlength : (s.records.filter fun entry => entry.pairId ≠ q).length = s.records.length ↔
      ¬ (s.get q).isSome = true := by
    rw [List.length_filter_eq_length_iff]
    unfold MemoryPairingStore.get
    rw [List.find?_isSome]
    simp
  unfold MemoryPairingStore.remove
  dsimp only
  by_cases h : (s.get q).isSome = true
  · rw [if_neg (fun hl => hlength.mp hl h), if_pos h]
    rfl
  · rw [if_pos (hlength.mpr h), if_neg h]

theorem cardSighting_remove (s : MemoryPairingStore E) (p q : PairId E.pairIdSize) :
    (orUnchanged s (s.remove q)).cardSighting p =
      if q = p ∧ (s.get p).isSome then none else s.cardSighting p := by
  rw [remove_eq]
  by_cases h : (s.get q).isSome = true
  · rw [if_pos h]
    have hdrop := cardSighting_dropCardSighting s p q
    show (s.dropCardSighting q).cardSighting p = _
    rw [hdrop]
    by_cases hqp : q = p
    · rw [if_pos hqp, if_pos ⟨hqp, hqp ▸ h⟩]
    · rw [if_neg hqp, if_neg fun hc => hqp hc.1]
  · rw [if_neg h, if_neg]
    · rfl
    · intro hx
      obtain ⟨rfl, hsome⟩ := hx
      exact h hsome

theorem get_remove (s : MemoryPairingStore E) (p q : PairId E.pairIdSize) :
    (orUnchanged s (s.remove q)).get p = if q = p then none else s.get p := by
  rw [remove_eq]
  by_cases hqp : q = p
  · subst hqp
    rw [if_pos rfl]
    split
    · refine List.find?_eq_none.mpr fun entry hentry => ?_
      simpa using (List.mem_filter.mp hentry).2
    next h => exact Option.not_isSome_iff_eq_none.mp h
  · rw [if_neg hqp]
    split
    · exact find?_filter_ne s.records (Ne.symm hqp)
    · rfl

/-- Removing one after the other. -/
theorem cardSighting_removeEach (p : PairId E.pairIdSize) (ps : List (PairId E.pairIdSize))
    (s : MemoryPairingStore E) :
    (ps.foldl (fun s q => orUnchanged s (s.remove q)) s).cardSighting p =
      if p ∈ ps ∧ (s.get p).isSome then none else s.cardSighting p := by
  induction ps generalizing s with
  | nil => simp
  | cons q ps ih =>
    rw [List.foldl_cons, ih, get_remove, cardSighting_remove]
    by_cases hqp : q = p
    · subst hqp
      simp
    · have hmem : p ∈ q :: ps ↔ p ∈ ps := by
        rw [List.mem_cons]
        exact or_iff_right (Ne.symm hqp)
      simp [hqp, hmem]

theorem sightings_update (s : MemoryPairingStore E) (q : PairId E.pairIdSize)
    (change : PairingRecord E → PairingRecord E) :
    (orUnchanged s (s.update q change)).sightings = s.sightings := by
  unfold MemoryPairingStore.update
  split <;> rfl

theorem sightings_revokeEach (ps : List (PairId E.pairIdSize)) (s : MemoryPairingStore E) :
    (ps.foldl (fun s q => orUnchanged s (revokePairing s q false)) s).sightings = s.sightings := by
  induction ps generalizing s with
  | nil => rfl
  | cons q ps ih =>
    rw [List.foldl_cons, ih]
    exact sightings_update s q _

theorem sightings_sweepEach (nowMs : Nat) (inSession : PairId E.pairIdSize → Bool)
    (ps : List (PairId E.pairIdSize)) (s : MemoryPairingStore E) :
    (sweepEach nowMs inSession ps s).2.sightings = s.sightings := by
  induction ps generalizing s with
  | nil => rfl
  | cons q ps ih =>
    have hrest := ih (s.sweep q nowMs (inSession q)).2
    unfold sweepEach
    dsimp only
    split <;> exact hrest

theorem cardSighting_of_sightings {s s' : MemoryPairingStore E} (h : s'.sightings = s.sightings)
    (p : PairId E.pairIdSize) : s'.cardSighting p = s.cardSighting p := by
  unfold MemoryPairingStore.cardSighting
  rw [h]

theorem cardSighting_forgetPairing (p q : PairId E.pairIdSize) (nowMs : Nat)
    (s : MemoryPairingStore E) : (orUnchanged s (forgetPairing s q nowMs)).cardSighting p =
      if Op.drops s p (.forgetPairing q nowMs) then none else s.cardSighting p := by
  by_cases hqp : q = p
  · subst hqp
    cases hget : s.get q with
    | none => simp [forgetPairing, Op.drops, hget, orUnchanged]
    | some record =>
      have hremoved := cardSighting_remove s q q
      have hforgotten := cardSighting_of_sightings (sightings_update s q fun r => r.forget nowMs) q
      cases hstate : record.state with
      | unconfirmed => simpa [forgetPairing, Op.drops, hget, hstate] using hremoved
      | revoked byPeer => simpa [forgetPairing, Op.drops, hget, hstate] using hremoved
      | forgotten => simp [forgetPairing, Op.drops, hget, hstate, orUnchanged]
      | serving => simpa [forgetPairing, Op.drops, hget, hstate] using hforgotten
  · have hremoved := cardSighting_remove s p q
    have hforgotten := cardSighting_of_sightings (sightings_update s q fun r => r.forget nowMs) p
    have hdrops : Op.drops s p (.forgetPairing q nowMs) = false := by simp [Op.drops, hqp]
    rw [if_neg fun h => hqp h.1] at hremoved
    rw [hdrops, if_neg Bool.false_ne_true]
    unfold forgetPairing
    split
    · rfl
    · split
      · exact hremoved
      · exact hremoved
      · rfl
      · exact hforgotten

theorem cardSighting_removeUnconfirmed (p : PairId E.pairIdSize) (s : MemoryPairingStore E) :
    (removeUnconfirmed s).2.cardSighting p =
      if Op.drops s p .removeUnconfirmed then none else s.cardSighting p := by
  -- a record that is found is listed
  have hlisted : (s.get p).isSome → p ∈ s.pairIds := by
    intro h
    obtain ⟨record, hrecord⟩ := Option.isSome_iff_exists.mp h
    unfold MemoryPairingStore.get at hrecord
    have hid := List.find?_some hrecord
    rw [decide_eq_true_eq] at hid
    unfold MemoryPairingStore.pairIds
    exact List.mem_map.mpr ⟨record, List.mem_reverse.mpr (List.mem_of_find?_eq_some hrecord), hid⟩
  unfold removeUnconfirmed Op.drops
  dsimp only
  rw [cardSighting_removeEach]
  cases hget : s.get p with
  | none => simp
  | some record =>
    have hmem := hlisted (by rw [hget]; rfl)
    simp [List.mem_filter, hmem, hget]

theorem cardSighting_peerClose (p q : PairId E.pairIdSize) (reason : CloseReason)
    (s : MemoryPairingStore E) : (applyPeerClose s q reason).cardSighting p =
      if Op.drops s p (.peerClose q reason) then none else s.cardSighting p := by
  have hdrop := cardSighting_dropCardSighting s p q
  cases reason with
  | pairingRevoked =>
    have hdrops : Op.drops s p (.peerClose q .pairingRevoked) = false := by simp [Op.drops]
    rw [hdrops, if_neg Bool.false_ne_true]
    exact cardSighting_of_sightings (sightings_update s q _) p
  | serviceWithdrawn => simpa [applyPeerClose, Op.drops] using hdrop
  | cardUnavailable => simpa [applyPeerClose, Op.drops] using hdrop
  | _ => simp [applyPeerClose, Op.drops]

theorem cardSighting_recordSighting (p : PairId E.pairIdSize) (session : SessionCard E)
    (nowMs unixMs : Nat) (s : MemoryPairingStore E) :
    (recordSighting s session nowMs unixMs).2.cardSighting p =
      (Op.sights p (.recordSighting session nowMs unixMs)).or (s.cardSighting p) := by
  have hsights : Op.sights p (.recordSighting session nowMs unixMs) =
      if session.pairId = p then session.sighting nowMs unixMs else none := rfl
  rw [hsights]
  obtain ⟨q, present, ended, sightedAtMs⟩ := session
  unfold SessionCard.sighting recordSighting
  dsimp only
  cases present with
  | none => simp
  | some fingerprint =>
    cases ended with
    | true => simp
    | false =>
      by_cases hrefresh : (sightedAtMs.any fun atMs => nowMs - atMs < sightingRefreshMs) = true
      · simp [hrefresh]
      · simp only [Bool.false_eq_true, if_false, hrefresh, Option.map_some]
        show (s.recordCardSighting q ⟨fingerprint, unixMs⟩).cardSighting p = _
        rw [cardSighting_recordCardSighting]
        split <;> rfl

/-- **What an operation makes of the sighting.** -/
theorem cardSighting_step (p : PairId E.pairIdSize) (s : MemoryPairingStore E) (op : Op E) :
    (step s op).cardSighting p =
      if op.drops s p then none else (op.sights p).or (s.cardSighting p) := by
  cases op with
  | insert record => rfl
  | update q change => exact cardSighting_of_sightings (sightings_update s q _) p
  | remove q =>
    show (orUnchanged s (s.remove q)).cardSighting p = _
    rw [cardSighting_remove]
    simp [Op.drops, Op.sights]
  | forgetPairing q nowMs => exact cardSighting_forgetPairing p q nowMs s
  | removeUnconfirmed => exact cardSighting_removeUnconfirmed p s
  | expireRevocationNotices nowMs => exact cardSighting_of_sightings (sightings_revokeEach _ s) p
  | sweep q nowMs established => rfl
  | sweepPairings nowMs inSession => exact cardSighting_of_sightings (sightings_sweepEach _ _ _ s) p
  | dropCardSighting q =>
    show (s.dropCardSighting q).cardSighting p = _
    rw [cardSighting_dropCardSighting]
    simp [Op.drops, Op.sights]
  | peerClose q reason => exact cardSighting_peerClose p q reason s
  | recordSighting session nowMs unixMs => exact cardSighting_recordSighting p session nowMs unixMs s

/-- Whether an operation leaves the sighting of `p` as it is. -/
def Op.leavesSighting (p : PairId E.pairIdSize) (s : MemoryPairingStore E) (op : Op E) : Prop :=
  op.sights p = none ∧ op.drops s p = false

/-- The last sighting of the pairing's card in a run, not dropped since. -/
def LastSighted (p : PairId E.pairIdSize) (ops : List (Op E)) (sighting : CardSighting E) : Prop :=
  ∃ earlier op later, ops = earlier ++ op :: later ∧ op.sights p = some sighting ∧
    Along step (Op.leavesSighting p) (after (earlier ++ [op])) later

theorem drops_of_sights {p : PairId E.pairIdSize} {op : Op E} {sighting : CardSighting E}
    (h : op.sights p = some sighting) (s : MemoryPairingStore E) : op.drops s p = false := by
  cases op with
  | recordSighting session nowMs unixMs => rfl
  | _ => cases h

theorem after_cons (earlier : List (Op E)) (op : Op E) (later : List (Op E)) :
    after (earlier ++ op :: later) = run step (after (earlier ++ [op])) later := by
  unfold after
  rw [← run_append, List.append_assoc, List.singleton_append]

/-- **The sighting in the store** is the last one recorded that was not dropped since. -/
theorem sighting_history (p : PairId E.pairIdSize) (ops : List (Op E)) (sighting : CardSighting E) :
    (after ops).cardSighting p = some sighting ↔ LastSighted p ops sighting := by
  -- on the last operation: it drops the sighting, or records one, or leaves the history alone
  induction ops using List.reverseRecOn with
  | nil =>
    constructor
    · intro h
      cases h
    · intro hx
      obtain ⟨earlier, op, later, heq, _⟩ := hx
      exact absurd heq.symm (List.append_ne_nil_of_right_ne_nil _ (List.cons_ne_nil _ _))
  | append_singleton ops op ih =>
    have hstep : (after (ops ++ [op])).cardSighting p =
        if op.drops (after ops) p then none else (op.sights p).or ((after ops).cardSighting p) := by
      unfold after
      rw [run_concat]
      exact cardSighting_step p _ op
    rw [hstep]
    constructor
    · intro h
      by_cases hdrops : op.drops (after ops) p = true
      · rw [if_pos hdrops] at h
        cases h
      rw [if_neg hdrops] at h
      cases hsights : op.sights p with
      | some heard =>
        rw [hsights, Option.some_or] at h
        exact ⟨ops, op, [], rfl, hsights.trans h, trivial⟩
      | none =>
        rw [hsights, Option.none_or] at h
        obtain ⟨earlier, op', later, rfl, hop', hlater⟩ := ih.mp h
        refine ⟨earlier, op', later ++ [op], by simp, hop', ?_⟩
        rw [along_append]
        refine ⟨hlater, ⟨hsights, ?_⟩, trivial⟩
        rw [Bool.not_eq_true, after_cons] at hdrops
        exact hdrops
    · intro hx
      obtain ⟨earlier, op', later, heq, hop', hlater⟩ := hx
      rcases List.eq_nil_or_concat later with rfl | ⟨later, op'', rfl⟩
      · obtain ⟨rfl, hop⟩ := List.append_inj' heq rfl
        obtain rfl : op = op' := List.singleton_inj.mp hop
        rw [drops_of_sights hop', if_neg Bool.false_ne_true, hop', Option.some_or]
      · rw [List.concat_eq_append, ← List.cons_append, ← List.append_assoc] at heq
        obtain ⟨rfl, hop⟩ := List.append_inj' heq rfl
        obtain rfl : op = op'' := List.singleton_inj.mp hop
        rw [List.concat_eq_append, along_append] at hlater
        obtain ⟨hlater, hleaves, _⟩ := hlater
        rw [← after_cons] at hleaves
        rw [hleaves.2, if_neg Bool.false_ne_true, hleaves.1, Option.none_or]
        exact ih.mpr ⟨earlier, op', later, rfl, hop', hlater⟩

/-! ## §2. What is offered -/

/-- Whether an operation forgets or revokes `p`, for the user or for the peer. -/
def Op.ends (p : PairId E.pairIdSize) : Op E → Bool
  | .update q (.forget _) => q = p
  | .update q (.revoke _) => q = p
  | .forgetPairing q _ => q = p
  | .peerClose q .pairingRevoked => q = p
  | _ => false

/-- Whether an operation is the peer's word that its service or its card is gone. -/
def Op.withdraws (p : PairId E.pairIdSize) : Op E → Bool
  | .peerClose q .serviceWithdrawn => q = p
  | .peerClose q .cardUnavailable => q = p
  | _ => false

/-- The record is revoked or forgotten. -/
def PairingRecord.Ended (r : PairingRecord E) : Prop :=
  r.pairRecord = none ∨ ∃ at', r.forgottenAtMs = some at'

theorem Fate.ended {r r' : PairingRecord E} (h : Fate r r') (hr : r.Ended) : r'.Ended := by
  rcases hr with hnone | ⟨at', hat⟩
  · exact .inl (h.revoked hnone)
  · rcases h.forgotten at' hat with hnone | hat'
    · exact .inl hnone
    · exact .inr ⟨at', hat'⟩

theorem PairingRecord.Ended.serves {r : PairingRecord E} (h : r.Ended) : r.serves = false := by
  unfold PairingRecord.serves
  rcases h with hnone | ⟨at', hat⟩
  · obtain ⟨byPeer, hstate⟩ := revoked_state hnone
    rw [hstate]
    rfl
  · rw [forgotten_state hat]
    rfl

theorem ended_revoke (r : PairingRecord E) (byPeer : Bool) : (r.revoke byPeer).Ended := .inl rfl

theorem get_update {f : PairingRecord E → PairingRecord E} (hf : ∀ r, (f r).pairId = r.pairId)
    (s : MemoryPairingStore E) (p : PairId E.pairIdSize) :
    (orUnchanged s (s.update p f)).get p = (s.get p).map f := by
  unfold MemoryPairingStore.update
  cases hget : s.get p with
  | none => exact hget
  | some record =>
    have hmodified := find?_modifyFirst hf p p s.records
    unfold MemoryPairingStore.get at hget
    rw [hget] at hmodified
    simp only [Option.map_some, if_true] at hmodified
    exact hmodified

section
variable (hE : E.Lawful)
include hE

theorem ended_forget (r : PairingRecord E) (atMs : Nat) : (r.forget atMs).Ended := by
  unfold PairingRecord.forget
  split
  next k hkeys =>
    split
    · exact .inr ⟨atMs, hE.forgotten_at k atMs⟩
    next hsome =>
      cases hat : E.forgottenAtMs k with
      | none =>
        rw [hat] at hsome
        exact absurd rfl hsome
      | some at' =>
        refine .inr ⟨at', ?_⟩
        unfold PairingRecord.forgottenAtMs PairingRecord.pairRecord
        rw [hkeys]
        exact hat
  next hkeys =>
    refine .inl ?_
    unfold PairingRecord.pairRecord
    rw [hkeys]

theorem ended_forgetPairing (s : MemoryPairingStore E) (p : PairId E.pairIdSize) (nowMs : Nat) :
    ∀ r, (orUnchanged s (forgetPairing s p nowMs)).get p = some r → r.Ended := by
  intro r hr
  have hremoved := get_remove s p p
  have hupdated := get_update (fun r => (fate_forget hE r nowMs).pairId) s p
  rw [if_pos rfl] at hremoved
  unfold forgetPairing at hr
  split at hr
  next hnone => exact absurd (hnone.symm.trans hr) (by simp)
  next record hget =>
    split at hr
    · exact absurd (hremoved.symm.trans hr) (by simp)
    · exact absurd (hremoved.symm.trans hr) (by simp)
    next hstate =>
      obtain rfl : record = r := Option.some.inj (hget.symm.trans hr)
      exact .inr (state_forgotten hstate)
    · rw [hupdated, hget] at hr
      cases hr
      exact ended_forget hE record nowMs

/-- After a forget or a revoke the pairing has no record, or one that has ended. -/
theorem ended_step {p : PairId E.pairIdSize} {op : Op E} (h : op.ends p = true)
    (s : MemoryPairingStore E) : ∀ r, (step s op).get p = some r → r.Ended := by
  have hupdate : ∀ change : Change E, (∀ r, (change.apply r).Ended) →
      ∀ r, (orUnchanged s (s.update p change.apply)).get p = some r → r.Ended := by
    intro change hended r hr
    rw [get_update fun r => (Change.fate hE r change).pairId] at hr
    obtain ⟨r₀, _, rfl⟩ := Option.map_eq_some_iff.mp hr
    exact hended r₀
  unfold Op.ends at h
  split at h
  next q atMs =>
    obtain rfl := of_decide_eq_true h
    exact hupdate (.forget atMs) fun r => ended_forget hE r atMs
  next q byPeer =>
    obtain rfl := of_decide_eq_true h
    exact hupdate (.revoke byPeer) fun r => ended_revoke r byPeer
  next q nowMs =>
    obtain rfl := of_decide_eq_true h
    exact ended_forgetPairing hE s q nowMs
  next q =>
    obtain rfl := of_decide_eq_true h
    exact hupdate (.revoke true) fun r => ended_revoke r true
  · cases h

end

theorem standsFor_iff (sighting : CardSighting E) (certificate : E.Certificate) (nowMs : Nat) :
    sighting.standsFor certificate nowMs = true ↔ E.fingerprint certificate = sighting.fingerprint ∧
      nowMs - sighting.atMs < E.identityOfferGraceMs ∧
      sighting.atMs - nowMs < E.identityOfferGraceMs := by
  have := E.decEqFingerprint
  unfold CardSighting.standsFor
  simp only [Bool.and_eq_true, decide_eq_true_eq, and_assoc]

/-- What is offered, by the record and the sighting in the store. -/
theorem offeredCertificate_iff (s : MemoryPairingStore E) (p : PairId E.pairIdSize) (nowMs : Nat)
    (c : E.Certificate) : offeredCertificate s p nowMs = some c ↔
      ∃ r sighting, s.get p = some r ∧ r.serves = true ∧ r.certificates.authentication = some c ∧
        s.cardSighting p = some sighting ∧ sighting.standsFor c nowMs = true := by
  unfold offeredCertificate
  simp only [Option.bind_eq_bind, Option.bind_eq_some_iff, Option.filter_eq_some_iff, Option.pure_def,
    Option.some.injEq]
  constructor
  · intro hx
    obtain ⟨r, ⟨hr, hserves⟩, c', hc', sighting, ⟨hsighting, hstands⟩, rfl⟩ := hx
    exact ⟨r, sighting, hr, hserves, hc', hsighting, hstands⟩
  · intro hx
    obtain ⟨r, sighting, hr, hserves, hc, hsighting, hstands⟩ := hx
    exact ⟨r, ⟨hr, hserves⟩, c, hc, sighting, ⟨hsighting, hstands⟩, rfl⟩

/-- Nothing is offered on a record that has ended. -/
theorem offered_of_ended {s : MemoryPairingStore E} {p : PairId E.pairIdSize}
    (h : ∀ r, s.get p = some r → r.Ended) (nowMs : Nat) : offeredCertificate s p nowMs = none := by
  rw [Option.eq_none_iff_forall_ne_some]
  intro c hc
  obtain ⟨r, _, hr, hserves, _⟩ := (offeredCertificate_iff s p nowMs c).mp hc
  rw [(h r hr).serves] at hserves
  cases hserves

/-- Nor while no card is sighted. -/
theorem offered_of_unsighted {s : MemoryPairingStore E} {p : PairId E.pairIdSize}
    (h : s.cardSighting p = none) (nowMs : Nat) : offeredCertificate s p nowMs = none := by
  rw [Option.eq_none_iff_forall_ne_some]
  intro c hc
  obtain ⟨_, sighting, _, _, _, hsighting, _⟩ := (offeredCertificate_iff s p nowMs c).mp hc
  rw [h] at hsighting
  cases hsighting

/-- A dropped sighting is not replaced but by a new one. -/
theorem unsighted_run {p : PairId E.pairIdSize} {s : MemoryPairingStore E}
    (h : s.cardSighting p = none) (ops : List (Op E)) (hops : ∀ op ∈ ops, op.sights p = none) :
    (run step s ops).cardSighting p = none := by
  induction ops generalizing s with
  | nil => exact h
  | cons op ops ih =>
    refine ih ?_ fun op' hop' => hops op' (List.mem_cons_of_mem _ hop')
    rw [cardSighting_step, hops op (List.mem_cons_self ..), h]
    exact ite_self none

theorem unsighted_withdraws {p : PairId E.pairIdSize} {op : Op E} (h : op.withdraws p = true)
    (s : MemoryPairingStore E) : (step s op).cardSighting p = none := by
  have hdrops : op.drops s p = true := by
    unfold Op.withdraws at h
    split at h
    · simpa [Op.drops] using h
    · simpa [Op.drops] using h
    · cases h
  rw [cardSighting_step, hdrops, if_pos rfl]

/-- **The offer law.**  What is offered is the authentication certificate of a record that
    serves, while the last sighting not dropped since names its card and lies within the
    grace.  After a forget or a revoke nothing is offered until a fresh record is stored for
    the pairing; after the peer's close for withdrawn service or an unavailable card, nothing
    until a new sighting.  A session that has ended records none. -/
theorem offer_law (hE : E.Lawful) (p : PairId E.pairIdSize) :
    (∀ ops nowMs c, offeredCertificate (after ops) p nowMs = some c ↔
      ∃ r sighting, (after ops).get p = some r ∧ r.serves = true ∧
        r.certificates.authentication = some c ∧ LastSighted p ops sighting ∧
        E.fingerprint c = sighting.fingerprint ∧
        nowMs - sighting.atMs < E.identityOfferGraceMs ∧
        sighting.atMs - nowMs < E.identityOfferGraceMs) ∧
    (∀ ops op later nowMs, op.ends p = true → (∀ op' ∈ later, op'.insertsFor p = false) →
      offeredCertificate (after (ops ++ op :: later)) p nowMs = none) ∧
    (∀ ops op later nowMs, op.withdraws p = true → (∀ op' ∈ later, op'.sights p = none) →
      offeredCertificate (after (ops ++ op :: later)) p nowMs = none) ∧
    ∀ (s : MemoryPairingStore E) session nowMs unixMs, session.ended = true →
      recordSighting s session nowMs unixMs = (session, s) := by
  refine ⟨?_, ?_, ?_, ?_⟩
  · intro ops nowMs c
    rw [offeredCertificate_iff]
    simp only [sighting_history, standsFor_iff]
  · intro ops op later nowMs hends hlater
    rw [after_cons]
    refine offered_of_ended (fun r' hr' => ?_) nowMs
    obtain ⟨r, hr, hfate⟩ := (run_record hE p _ later hlater).course r' hr'
    have hlast : after (ops ++ [op]) = step (after ops) op := run_concat step {} ops op
    rw [hlast] at hr
    exact hfate.ended (ended_step hE hends (after ops) r hr)
  · intro ops op later nowMs hwithdraws hlater
    rw [after_cons]
    have hlast : after (ops ++ [op]) = step (after ops) op := run_concat step {} ops op
    rw [hlast]
    exact offered_of_unsighted (unsighted_run (unsighted_withdraws hwithdraws _) later hlater) nowMs
  · intro s session nowMs unixMs hended
    unfold recordSighting
    split
    · rfl
    · rw [hended, if_pos rfl]

/-- A card seen on a serving pairing, the pairing revoked, and its record stored again. -/
def seenOps : List (Op smallEngine) :=
  [.insert { smallRecord 1 with certificates := { authentication := some ⟨[7], by decide⟩ } },
    .recordSighting ⟨(smallRecord 1).pairId, some [7], false, none⟩ 0 1000]

theorem offer_law_seen :
    offeredCertificate (after seenOps) (smallRecord 1).pairId 2000 = some ⟨[7], by decide⟩ :=
  ((offer_law smallEngine_lawful (smallRecord 1).pairId).1 seenOps 2000 ⟨[7], by decide⟩).mpr
    ⟨_, ⟨[7], 1000⟩, rfl, rfl, rfl, ⟨seenOps.take 1, .recordSighting ⟨(smallRecord 1).pairId, some [7],
      false, none⟩ 0 1000, [], rfl, rfl, trivial⟩, rfl, by decide, by decide⟩

/-- A revoked pairing whose record is stored again is offered on the sighting from before. -/
theorem reinserted_offered :
    ¬ ∀ (ops : List (Op smallEngine)) op later nowMs, op.ends (smallRecord 1).pairId = true →
      (∀ op' ∈ later, op'.sights (smallRecord 1).pairId = none) →
      offeredCertificate (after (ops ++ op :: later)) (smallRecord 1).pairId nowMs = none := by
  intro h
  have hnone := h seenOps (.update (smallRecord 1).pairId (.revoke true)) (seenOps.take 1) 2000 rfl
    (by simp [seenOps, Op.sights])
  have hsome : (offeredCertificate (after (seenOps ++ .update (smallRecord 1).pairId (.revoke true) ::
    seenOps.take 1)) (smallRecord 1).pairId 2000).isSome = true := rfl
  rw [hnone] at hsome
  cases hsome

end RefineId.Pairing
