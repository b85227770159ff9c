/-
  RefineId.PairingProtected — the protected pairing store and its file.
  ════════════════════════════════════════════════════════════════════════════

  `crates/refineid-windows-credential-store/src/pairing.rs`: the store serves its records
  from memory and mirrors them to one file, protected by DPAPI.  `insert`, `update` and
  `remove` read the file again, change the records in memory and write them back.  Reading,
  encoding, protecting and writing may each fail; the host decides.

  Main results:
    • `change_cases`   : the ways a change can go.
    • `mutation_error` : on an error the file is as it was, and memory is what it was, or
                         the file's set, or that set with the change that was refused.
-/
import RefineId.PairingSets
import RefineId.PairingStore

namespace RefineId.Pairing

variable {E : Engine}

/-! ## §1. The profile directory -/

/-- `CredentialStoreError`, as far as the pairing set can meet it. -/
inductive CredentialStoreError where
  | pairingNotEncodable
  | protection
  | file
  deriving Repr, DecidableEq

/-- The user's profile directory, with DPAPI and what the file system lets happen in it. -/
structure Profile (E : Engine) where
  pairingSet : Option Bytes := none
  sightings : List (PairId E.pairIdSize × CardSighting E) := []
  readable : Bool := true
  replaceable : Bool := true
  sightingsRemovable : Bool := true
  protect : Bytes → Option Bytes := some
  unprotect : Bytes → Option Bytes := some

namespace Profile

/-- `read_pairing_set`. -/
def readPairingSet (d : Profile E) : Except CredentialStoreError (Option Bytes) :=
  if d.readable then
    match d.pairingSet with
    | none => .ok none
    | some protected' =>
      match d.unprotect protected' with
      | none => .error .protection
      | some blob => .ok (some blob)
  else .error .file

/-- `write_pairing_set`: through a file of its own and a rename. -/
def writePairingSet (d : Profile E) (blob : Bytes) : Except CredentialStoreError (Profile E) :=
  match d.protect blob with
  | none => .error .protection
  | some protected' =>
    if d.replaceable then .ok { d with pairingSet := some protected' } else .error .file

/-- `remove_sighting`: one that cannot be removed stays. -/
def removeSighting (d : Profile E) (pairId : PairId E.pairIdSize) : Profile E :=
  if d.sightingsRemovable then
    { d with sightings := d.sightings.filter fun entry => entry.1 ≠ pairId }
  else d

/-- **The set held on disk**: the records of the file, none of them if there is no file;
    `none` where it cannot be read. -/
def held (d : Profile E) : Option (List (PairingRecord E)) :=
  match d.readPairingSet with
  | .ok none => some []
  | .ok (some blob) => (decodePairingRecords blob).toOption.map PairingSet.records
  | .error _ => none

end Profile

/-! ## §2. The store -/

/-- `ProtectedPairingStore`; the directory is passed beside it. -/
structure ProtectedPairingStore (E : Engine) where
  records : List (PairingRecord E) := []
  sightings : List (PairId E.pairIdSize × CardSighting E) := []

namespace ProtectedPairingStore

/-- `refresh`. -/
def refresh (s : ProtectedPairingStore E) (d : Profile E) :
    Except StoreError Unit × ProtectedPairingStore E :=
  let s := { s with sightings := d.sightings }
  match d.readPairingSet with
  | .ok (some blob) =>
    match decodePairingRecords blob with
    | .ok set => (.ok (), { s with records := set.records })
    | .error _ => (.error .unreadable, s)
  | .ok none => (.ok (), { s with records := [] })
  | .error _ => (.error .unreadable, s)

/-- `persist`. -/
def persist (s : ProtectedPairingStore E) (d : Profile E) :
    Except CredentialStoreError (Profile E) :=
  match encodePairingRecords s.records with
  | .error _ => .error .pairingNotEncodable
  | .ok blob => d.writePairingSet blob

/-- `change`: a closure may refuse, and leaves the records as it leaves them. -/
def change (s : ProtectedPairingStore E) (d : Profile E)
    (edit : List (PairingRecord E) → Except StoreError Unit × List (PairingRecord E)) :
    Except StoreError Unit × ProtectedPairingStore E × Profile E :=
  match s.refresh d with
  | (.error e, s) => (.error e, s, d)
  | (.ok (), s) =>
    match edit s.records with
    | (.error e, records) => (.error e, { s with records }, d)
    | (.ok (), records) =>
      let s := { s with records }
      match s.persist d with
      | .error _ => (.error .writeRefused, s, d)
      | .ok d => (.ok (), s, d)

end ProtectedPairingStore

/-- The operations that change the set. -/
inductive Mutation (E : Engine) where
  | insert (record : PairingRecord E)
  | update (pairId : PairId E.pairIdSize) (change : PairingRecord E → PairingRecord E)
  | remove (pairId : PairId E.pairIdSize)

namespace Mutation

/-- The closure of an operation. -/
def edit : Mutation E → List (PairingRecord E) → Except StoreError Unit × List (PairingRecord E)
  | .insert record, records =>
    (.ok (), (records.filter fun entry => entry.pairId ≠ record.pairId) ++ [record])
  | .update pairId change, records =>
    match records.find? fun entry => entry.pairId = pairId with
    | none => (.error .unknown, records)
    | some _ => (.ok (), MemoryPairingStore.modifyFirst pairId change records)
  | .remove pairId, records =>
    let kept := records.filter fun entry => entry.pairId ≠ pairId
    if kept.length = records.length then (.error .unknown, kept) else (.ok (), kept)

/-- What `remove` does once the set is written. -/
def settle : Mutation E → ProtectedPairingStore E → Profile E → ProtectedPairingStore E × Profile E
  | .remove pairId, s, d =>
    ({ s with sightings := s.sightings.filter fun entry => entry.1 ≠ pairId },
      d.removeSighting pairId)
  | _, s, d => (s, d)

/-- `insert`, `update` and `remove`. -/
def run (m : Mutation E) (s : ProtectedPairingStore E) (d : Profile E) :
    Except StoreError Unit × ProtectedPairingStore E × Profile E :=
  match s.change d m.edit with
  | (.error e, s, d) => (.error e, s, d)
  | (.ok (), s, d) => (.ok (), m.settle s d)

end Mutation

/-! ## §3. What a failed change leaves -/

/-- **What `refresh` serves**: the set on disk; where that cannot be read, what it served. -/
theorem refresh_cases (s : ProtectedPairingStore E) (d : Profile E) :
    (∃ held, d.held = some held ∧ s.refresh d = (.ok (), ⟨held, d.sightings⟩)) ∨
    (d.held = none ∧ s.refresh d = (.error .unreadable, ⟨s.records, d.sightings⟩)) := by
  unfold Profile.held ProtectedPairingStore.refresh
  cases hread : d.readPairingSet with
  | error e => exact .inr ⟨rfl, rfl⟩
  | ok file =>
    cases file with
    | none => exact .inl ⟨[], rfl, rfl⟩
    | some blob =>
      dsimp only
      cases hdecode : (decodePairingRecords blob : Except (PairingCodecError E) (PairingSet E)) with
      | error e => exact .inr ⟨rfl, rfl⟩
      | ok set => exact .inl ⟨set.records, rfl, rfl⟩

/-- A closure that refuses has changed nothing, and refuses an unknown pairing. -/
theorem edit_error {m : Mutation E} {records records' : List (PairingRecord E)} {e : StoreError}
    (h : m.edit records = (.error e, records')) : e = .unknown ∧ records' = records := by
  cases m with
  | insert record => cases h
  | update pairId change =>
    unfold Mutation.edit at h
    dsimp only at h
    split at h
    · cases h
      exact ⟨rfl, rfl⟩
    · cases h
  | remove pairId =>
    unfold Mutation.edit at h
    dsimp only at h
    split at h
    next hlength =>
      cases h
      refine ⟨rfl, ?_⟩
      -- nothing was left out, or the set would be shorter
      exact List.filter_sublist.eq_of_length hlength
    · cases h

/-- **The ways a change can go**: the set could not be read; the closure refused; the write
    was refused; or the changed set is served and on disk. -/
theorem change_cases (m : Mutation E) (s : ProtectedPairingStore E) (d : Profile E) :
    (d.held = none ∧ s.change d m.edit = (.error .unreadable, ⟨s.records, d.sightings⟩, d)) ∨
    (∃ held, d.held = some held ∧
      ((m.edit held = (.error .unknown, held) ∧
          s.change d m.edit = (.error .unknown, ⟨held, d.sightings⟩, d)) ∨
        ∃ changed, m.edit held = (.ok (), changed) ∧
          (s.change d m.edit = (.error .writeRefused, ⟨changed, d.sightings⟩, d) ∨
            ∃ d', s.change d m.edit = (.ok (), ⟨changed, d.sightings⟩, d')))) := by
  obtain ⟨held, hheld, hrefresh⟩ | ⟨hheld, hrefresh⟩ := refresh_cases s d
  · refine .inr ⟨held, hheld, ?_⟩
    unfold ProtectedPairingStore.change
    simp only [hrefresh]
    cases hedit : m.edit held with
    | mk result records =>
      cases result with
      | error e =>
        obtain ⟨rfl, rfl⟩ := edit_error hedit
        exact .inl ⟨rfl, rfl⟩
      | ok _ =>
        refine .inr ⟨records, rfl, ?_⟩
        dsimp only
        split
        · exact .inl rfl
        next d' _ => exact .inr ⟨d', rfl⟩
  · refine .inl ⟨hheld, ?_⟩
    unfold ProtectedPairingStore.change
    simp only [hrefresh]

/-- **What an error leaves**, for every store, every state of the profile and every failure:
    nothing on disk has changed.  A set that could not be read leaves the records served as
    they were; for an unknown pairing the store serves the set on disk; a refused write
    leaves it serving that set with the whole change made, until the set is next read, which
    serves the one on disk again. -/
theorem mutation_error {m : Mutation E} {s s' : ProtectedPairingStore E} {d d' : Profile E}
    {e : StoreError} (h : m.run s d = (.error e, s', d')) :
    d' = d ∧
    (e = .unreadable → d.held = none ∧ s'.records = s.records) ∧
    (e = .unknown → d.held = some s'.records) ∧
    (e = .writeRefused → ∃ held, d.held = some held ∧ m.edit held = (.ok (), s'.records) ∧
      s'.refresh d = (.ok (), ⟨held, d.sightings⟩)) := by
  have hchange : s.change d m.edit = (.error e, s', d') := by
    unfold Mutation.run at h
    split at h
    next hrun => rw [hrun, h]
    · cases h
  obtain ⟨hheld, hunread⟩ | ⟨held, hheld, hrest⟩ := change_cases m s d
  · rw [hunread] at hchange
    cases hchange
    exact ⟨rfl, fun _ => ⟨hheld, rfl⟩, nofun, nofun⟩
  · obtain ⟨-, hunknown⟩ | ⟨changed, hedit, hrefused | ⟨d'', hdone⟩⟩ := hrest
    · rw [hunknown] at hchange
      cases hchange
      exact ⟨rfl, nofun, fun _ => hheld, nofun⟩
    · rw [hrefused] at hchange
      cases hchange
      refine ⟨rfl, nofun, nofun, fun _ => ⟨held, hheld, hedit, ?_⟩⟩
      obtain ⟨held', hheld', hrefresh⟩ | ⟨hnone, -⟩ := refresh_cases
        (⟨changed, d.sightings⟩ : ProtectedPairingStore E) d
      · rw [hheld] at hheld'
        injection hheld' with hheld'
        rw [hheld']
        exact hrefresh
      · rw [hheld] at hnone
        cases hnone
    · rw [hdone] at hchange
      cases hchange

/-- A profile without a set, in which no file can be replaced. -/
def fullProfile : Profile smallEngine := { replaceable := false }

/-- What the insertion of a pairing leaves there. -/
theorem mutation_error_insert :
    (Mutation.insert (smallRecord 1)).run {} fullProfile =
      (.error .writeRefused, ⟨[smallRecord 1], []⟩, fullProfile) ∧
    ∃ held, fullProfile.held = some held ∧
      (Mutation.insert (smallRecord 1)).edit held = (.ok (), [smallRecord 1]) ∧
      (⟨[smallRecord 1], []⟩ : ProtectedPairingStore smallEngine).refresh fullProfile =
        (.ok (), ⟨held, []⟩) := by
  have hrun : (Mutation.insert (smallRecord 1)).run {} fullProfile =
      (.error .writeRefused, ⟨[smallRecord 1], []⟩, fullProfile) := rfl
  exact ⟨hrun, (mutation_error hrun).2.2.2 rfl⟩

/-- After an error the store may serve what is not on disk: a pairing whose insertion was
    refused. -/
theorem served_not_held :
    ¬ ∀ (m : Mutation smallEngine) (s s' : ProtectedPairingStore smallEngine)
        (d d' : Profile smallEngine) (e : StoreError),
      m.run s d = (.error e, s', d') → d'.held = some s'.records := by
  intro h
  have hheld := h (.insert (smallRecord 1)) {} ⟨[smallRecord 1], []⟩ fullProfile fullProfile
    .writeRefused rfl
  have hempty : fullProfile.held = some [] := rfl
  rw [hempty] at hheld
  cases hheld

end RefineId.Pairing
