/-
  RefineId.PairingFiles — one pairing file under several stores.
  ════════════════════════════════════════════════════════════════════════════

  `crates/refineid-windows-credential-store/src/pairing.rs` keeps the pairing set in one
  file.  Every change reads the set again, changes it and writes it back whole, through a
  file of its own and a rename.  Nothing holds the file between the read and the rename, so
  another instance's write may land there.  An operation is therefore two events here, and
  a run is any sequence of such events of any number of instances.

  The set's octets are the subject of `RefineId.PairingSets`; here the file is the set.

  Main results:
    • `change_other`      : a change touches no other pairing in the set it is made to.
    • `write_keeps_iff`   : a write spares the other pairings exactly if their records are
                            still what its operation read.
    • `fresh_writes_keep` : while every write finds the set it read, no operation touches
                            another pairing.
-/
import RefineId.PairingSets
import RefineId.PairingStore

namespace RefineId.Pairing

open Lib

variable {E : Engine}

/-! ## §1. Changes of the set -/

/-- The changes of the stored set. -/
inductive SetChange (E : Engine) where
  | insert (record : PairingRecord E)
  | update (pairId : PairId E.pairIdSize) (change : Change E)
  | remove (pairId : PairId E.pairIdSize)
  | sweep (pairId : PairId E.pairIdSize) (nowMs : Nat) (sessionEstablished : Bool)

/-- The pairing a change is about. -/
def SetChange.pairId : SetChange E → PairId E.pairIdSize
  | .insert record => record.pairId
  | .update pairId _ => pairId
  | .remove pairId => pairId
  | .sweep pairId _ _ => pairId

/-- The record the idle-expiry check hands to the store, if it hands one. -/
def sweptRecord (record : PairingRecord E) (nowMs : Nat) (sessionEstablished : Bool) :
    Option (PairingRecord E) :=
  match (record.sweep nowMs sessionEstablished fun checked =>
    (.error checked : Except (PairingRecord E) Unit)).1 with
  | .error (.store checked) => some checked
  | .error (.encoding _) | .ok _ => none

/-- The first record of a pairing in the set. -/
def findPairing (records : List (PairingRecord E)) (pairId : PairId E.pairIdSize) :
    Option (PairingRecord E) :=
  records.find? fun entry => entry.pairId = pairId

/-- The set a change writes, made to the set it read; `none` where it writes nothing. -/
def SetChange.apply (records : List (PairingRecord E)) : SetChange E → Option (List (PairingRecord E))
  | .insert record =>
    some ((records.filter fun entry => entry.pairId ≠ record.pairId) ++ [record])
  | .update pairId change =>
    (findPairing records pairId).map fun _ =>
      MemoryPairingStore.modifyFirst pairId change.apply records
  | .remove pairId =>
    let kept := records.filter fun entry => entry.pairId ≠ pairId
    if kept.length = records.length then none else some kept
  | .sweep pairId nowMs sessionEstablished => do
    let record ← findPairing records pairId
    let checked ← sweptRecord record nowMs sessionEstablished
    return MemoryPairingStore.modifyFirst pairId (fun _ => checked) records

/-! ## §2. Events -/

/-- The file, and what each instance has read for the change it is making. -/
structure SharedFile (E : Engine) (I : Type) where
  records : List (PairingRecord E) := []
  pending : I → Option (SetChange E × List (PairingRecord E)) := fun _ => none

/-- What an instance does next. -/
inductive FileEvent (E : Engine) (I : Type) where
  /-- `refresh`, at the beginning of a change. -/
  | read (instance' : I) (change : SetChange E)
  /-- `write_pairing_set`, up to and with the rename. -/
  | write (instance' : I)
  /-- The set could not be read, encoded or written. -/
  | fail (instance' : I)

namespace SharedFile

variable {I : Type} [DecidableEq I]

/-- What an instance has under way. -/
def setPending (s : SharedFile E I) (i : I)
    (pending : Option (SetChange E × List (PairingRecord E))) : SharedFile E I :=
  { s with pending := fun j => if j = i then pending else s.pending j }

/-- One event.  An instance makes one change at a time. -/
def step (s : SharedFile E I) : FileEvent E I → SharedFile E I
  | .read i change =>
    match s.pending i with
    | some _ => s
    | none => s.setPending i (some (change, s.records))
  | .write i =>
    match s.pending i with
    | none => s
    | some (change, read) =>
      match change.apply read with
      | none => s.setPending i none
      | some written => { s.setPending i none with records := written }
  | .fail i => s.setPending i none

/-- No other write has landed since the one that is written now was read. -/
def Fresh (s : SharedFile E I) : FileEvent E I → Prop
  | .write i => ∀ change read, s.pending i = some (change, read) → s.records = read
  | _ => True

/-- The event writes no change of pairing `p`. -/
def Elsewhere (p : PairId E.pairIdSize) (s : SharedFile E I) : FileEvent E I → Prop
  | .write i => ∀ change read, s.pending i = some (change, read) → change.pairId ≠ p
  | _ => True

end SharedFile

/-! ## §3. One change -/

/-- Changing a pairing's first record leaves the first record of any other. -/
theorem find?_modifyFirst_of_ne {f : PairingRecord E → PairingRecord E} {p q : PairId E.pairIdSize}
    (hpq : q ≠ p) (hf : ∀ r, r.pairId = q → (f r).pairId = q) (l : List (PairingRecord E)) :
    findPairing (MemoryPairingStore.modifyFirst q f l) p = findPairing l p := by
  unfold findPairing
  induction l with
  | nil => rfl
  | cons entry l ih =>
    unfold MemoryPairingStore.modifyFirst
    by_cases hq : entry.pairId = q
    · have hentry : ¬ entry.pairId = p := fun hp => hpq (hq.symm.trans hp)
      have hchanged : ¬ (f entry).pairId = p := fun hp => hpq ((hf entry hq).symm.trans hp)
      rw [if_pos hq, List.find?_cons_of_neg (by simpa using hchanged),
        List.find?_cons_of_neg (by simpa using hentry)]
    · rw [if_neg hq, List.find?_cons, List.find?_cons, ih]

theorem findPairing_pairId {records : List (PairingRecord E)} {p : PairId E.pairIdSize}
    {record : PairingRecord E} (h : findPairing records p = some record) : record.pairId = p := by
  unfold findPairing at h
  have hid := List.find?_some h
  exact of_decide_eq_true hid

section
variable (hE : E.Lawful) (hC : E.Codec)
include hE hC

/-- The check hands over a record of the same pairing. -/
theorem sweptRecord_pairId {record checked : PairingRecord E} {nowMs : Nat} {established : Bool}
    (h : sweptRecord record nowMs established = some checked) : checked.pairId = record.pairId := by
  unfold sweptRecord PairingRecord.sweep at h
  cases hkeys : record.keys with
  | revoked _ _ _ => simp [hkeys] at h
  | held k =>
    rw [hkeys] at h
    dsimp only at h
    cases hcheck : E.check k nowMs established with
    | none => simp [hcheck] at h
    | some outcome =>
      obtain ⟨outcome, after'⟩ := outcome
      rw [hcheck] at h
      dsimp only at h
      cases hencode : E.encodePairRecord after' with
      | error e => simp [hencode] at h
      | ok encoded =>
        -- what the callback decodes is what the engine encoded
        have hdecode := (hC.pairRecord_iff after' encoded).mp hencode
        simp only [hencode, hdecode, Option.some.injEq] at h
        rw [← h]
        have hrecord : record.pairId = E.pairId k := by
          unfold PairingRecord.pairId
          rw [hkeys]
        unfold PairingRecord.checkedRecord
        split
        · rfl
        · rw [hrecord]
          exact hE.checked_pairId _ _ _ _ _ hcheck

/-- **A change touches no other pairing** in the set it is made to. -/
theorem change_other {change : SetChange E} {records written : List (PairingRecord E)}
    (h : change.apply records = some written) {p : PairId E.pairIdSize} (hp : change.pairId ≠ p) :
    findPairing written p = findPairing records p := by
  cases change with
  | insert record =>
    injection h with h
    rw [← h]
    exact get_insert_of_ne ⟨records, []⟩ record hp
  | update q change =>
    obtain ⟨_, _, rfl⟩ := Option.map_eq_some_iff.mp h
    exact find?_modifyFirst_of_ne hp (fun r hr => ((Change.fate hE r change).pairId).trans hr) records
  | remove q =>
    unfold SetChange.apply at h
    dsimp only at h
    split at h
    · cases h
    · injection h with h
      rw [← h]
      exact find?_filter_ne records (Ne.symm hp)
  | sweep q nowMs established =>
    unfold SetChange.apply at h
    simp only [Option.bind_eq_bind, Option.bind_eq_some_iff, Option.pure_def, Option.some.injEq] at h
    obtain ⟨record, hrecord, checked, hchecked, rfl⟩ := h
    have hid : checked.pairId = q :=
      (sweptRecord_pairId hE hC hchecked).trans (findPairing_pairId hrecord)
    exact find?_modifyFirst_of_ne hp (fun _ _ => hid) records

end

/-! ## §4. Runs -/

section
variable {I : Type} [DecidableEq I] (hE : E.Lawful) (hC : E.Codec)
include hE hC

/-- **What a write spares**: the other pairings keep their records exactly if the file still
    holds the ones its operation read. -/
theorem write_keeps_iff {s : SharedFile E I} {i : I} {change : SetChange E}
    {read written : List (PairingRecord E)} (hpending : s.pending i = some (change, read))
    (hwrites : change.apply read = some written) {p : PairId E.pairIdSize} (hp : change.pairId ≠ p) :
    findPairing (s.step (.write i)).records p = findPairing s.records p ↔
      findPairing s.records p = findPairing read p := by
  have hrecords : (s.step (.write i)).records = written := by
    unfold SharedFile.step
    simp only [hpending, hwrites]
  rw [hrecords, change_other hE hC hwrites hp]
  exact eq_comm

theorem step_keeps {p : PairId E.pairIdSize} (s : SharedFile E I) (event : FileEvent E I)
    (hfresh : s.Fresh event) (helse : s.Elsewhere p event) :
    findPairing (s.step event).records p = findPairing s.records p := by
  cases event with
  | read i change =>
    unfold SharedFile.step
    dsimp only
    split <;> rfl
  | fail i => rfl
  | write i =>
    cases hpending : s.pending i with
    | none =>
      unfold SharedFile.step
      simp only [hpending]
    | some pending =>
      obtain ⟨change, read⟩ := pending
      cases hwrites : change.apply read with
      | none =>
        unfold SharedFile.step
        simp only [hpending, hwrites]
        rfl
      | some written =>
        rw [write_keeps_iff hE hC hpending hwrites (helse change read hpending),
          hfresh change read hpending]

/-- **While every write finds the set it read**, a pairing's stored record outlives every
    operation on other pairings, whoever makes them: a revoked or forgotten record stays as
    it is and an inserted one stays there. -/
theorem fresh_writes_keep (p : PairId E.pairIdSize) (events later : List (FileEvent E I))
    (hfresh : Along SharedFile.step SharedFile.Fresh {} (events ++ later))
    (helse : Along SharedFile.step (SharedFile.Elsewhere p) (run SharedFile.step {} events) later) :
    findPairing (run SharedFile.step {} (events ++ later)).records p =
      findPairing (run SharedFile.step {} events).records p := by
  rw [along_append] at hfresh
  rw [run_append]
  generalize run SharedFile.step ({} : SharedFile E I) events = s at hfresh helse
  have hlater := hfresh.2
  clear hfresh
  induction later generalizing s with
  | nil => rfl
  | cons event later ih =>
    rw [run_cons, ih _ helse.2 hlater.2]
    exact step_keeps hE hC s event hlater.1 helse.1

end

/-- One store inserts and revokes a pairing, then the other stores a second one. -/
def freshEvents : List (FileEvent smallEngine Bool) :=
  [.read false (.insert (smallRecord 1)), .write false,
    .read false (.update (smallRecord 1).pairId (.revoke false)), .write false]

/-- The other store's pairing. -/
def otherEvents : List (FileEvent smallEngine Bool) :=
  [.read true (.insert (smallRecord 2)), .write true]

theorem fresh_writes_keep_revoked :
    (findPairing (run SharedFile.step {} (freshEvents ++ otherEvents)).records
      (smallRecord 1).pairId).map PairingRecord.state = some (.revoked false) := by
  rw [fresh_writes_keep smallEngine_lawful smallEngine_codec (smallRecord 1).pairId freshEvents
    otherEvents
    ⟨trivial, fun _ _ h => by cases h; rfl, trivial, fun _ _ h => by cases h; rfl, trivial,
      fun _ _ h => by cases h; rfl, trivial⟩
    ⟨trivial, fun _ _ h => by cases h; decide, trivial⟩]
  rfl

/-- The second store reads the set, and the first revokes its pairing before the second
    writes. -/
def staleRevoke : List (FileEvent smallEngine Bool) :=
  [.read false (.insert (smallRecord 1)), .write false, .read true (.insert (smallRecord 2)),
    .read false (.update (smallRecord 1).pairId (.revoke false)), .write false]

/-- The second store reads the set, and the first inserts its pairing before the second
    writes. -/
def staleInsert : List (FileEvent smallEngine Bool) :=
  [.read true (.insert (smallRecord 2)), .read false (.insert (smallRecord 1)), .write false]

/-- Without that, a write on another pairing brings destroyed keys back, and loses an
    inserted record. -/
theorem stale_write_undoes :
    (¬ ∀ (p : PairId 16) (events later : List (FileEvent smallEngine Bool)),
      Along SharedFile.step (SharedFile.Elsewhere p) (run SharedFile.step {} events) later →
      ∀ r r', findPairing (run SharedFile.step {} events).records p = some r → r.pairRecord = none →
        findPairing (run SharedFile.step {} (events ++ later)).records p = some r' →
        r'.pairRecord = none) ∧
    ¬ ∀ (p : PairId 16) (events later : List (FileEvent smallEngine Bool)),
      Along SharedFile.step (SharedFile.Elsewhere p) (run SharedFile.step {} events) later →
      ∀ r, findPairing (run SharedFile.step {} events).records p = some r →
        (findPairing (run SharedFile.step {} (events ++ later)).records p).isSome = true := by
  constructor
  · intro h
    have hnone := h (smallRecord 1).pairId staleRevoke [.write true]
      ⟨fun _ _ h => by cases h; decide, trivial⟩ _ _ rfl rfl rfl
    cases hnone
  · intro h
    have hsome := h (smallRecord 1).pairId staleInsert [.write true]
      ⟨fun _ _ h => by cases h; decide, trivial⟩ _ rfl
    cases hsome

end RefineId.Pairing
