/-
  RefineId.Slots — the PKCS#11 module's slot table and sessions.
  ════════════════════════════════════════════════════════════════════════════

  `crates/refineid-pkcs11/src/state.rs` gives every reader, local or a paired phone, a
  slot id and keeps sessions that refer to slots by id.  Two refreshes insert into the
  one table; sessions hold ids across them.

  The hardware and the pairing store are inputs: a refresh is handed what they answered.
  `CK_ULONG` is 32 bits wide on Windows and 64 elsewhere, so the largest id is a
  parameter; the counters saturate at it.  The find, sign and verify states of a session
  are those of `SessionOperations`, the events of `C_WaitForSlotEvent` of `SlotEvents`.

  Main results:
    • `step_table`          : a step interns the names it admits and gives ids in order.
    • `run_table`           : so does a run; its table is the interned list of names.
    • `sessionsRefer_after` : every open session refers to a slot of the table.
    • `slots_stable_iff`    : the table over whole runs, and when its ids are distinct.
-/
import RefineId.Lib.Intern
import RefineId.Lib.Run
import RefineId.PinCache

namespace RefineId.Slots

open Lib
open PinCache (PinSafetyCache)

/-! ## §1. State -/

/-- `ReaderIdentity`; the version is kept as its digits. -/
structure ReaderIdentity where
  vendorName : Option String
  ifdVersion : Option (Nat × Nat × Nat)
  deriving Repr, DecidableEq

/-- `SlotRecord`. -/
structure SlotRecord where
  id : Nat
  readerName : String
  cardPresent : Bool
  readerIdentity : ReaderIdentity
  deriving Repr, DecidableEq

/-- `Session`: its slot and flags. -/
structure Session where
  slotId : Nat
  flags : Nat
  deriving Repr, DecidableEq

/-- `SLOT_ID_BASE`. -/
def slotIdBase : Nat := 1

/-- `SESSION_HANDLE_BASE`. -/
def sessionHandleBase : Nat := 1

/-- `CKF_SERIAL_SESSION`, as the number of its bit. -/
def ckfSerialSession : Nat := 2

variable {Objects : Type}

/-- `ModuleState`. -/
structure ModuleState (Objects : Type) where
  slots : List SlotRecord
  nextSlotId : Nat
  sessions : Nat → Option Session
  nextSessionHandle : Nat
  pinCaches : Nat → Option PinSafetyCache
  tokenCache : Nat → Option Objects
  remoteLoggedIn : Finset Nat

/-- `ModuleState::new`, before its first refresh. -/
def ModuleState.initial : ModuleState Objects where
  slots := []
  nextSlotId := slotIdBase
  sessions := fun _ => none
  nextSessionHandle := sessionHandleBase
  pinCaches := fun _ => none
  tokenCache := fun _ => none
  remoteLoggedIn := ∅

/-- `ModuleState::slot`. -/
def ModuleState.slot (s : ModuleState Objects) (id : Nat) : Option SlotRecord :=
  s.slots.find? fun slot => slot.id == id

/-- Where the slot of a reader stands in the table. -/
def ModuleState.position (s : ModuleState Objects) (name : String) : Option Nat :=
  s.slots.findIdx? fun slot => slot.readerName == name

/-- Set the presence of the slot at `pos`. -/
def ModuleState.setPresent (s : ModuleState Objects) (pos : Nat) (present : Bool) :
    ModuleState Objects :=
  { s with slots := s.slots.modify pos fun slot => { slot with cardPresent := present } }

/-- Forget the PIN held for a slot. -/
def ModuleState.clearPositive (s : ModuleState Objects) (slotId : Nat) : ModuleState Objects :=
  { s with pinCaches := fun id =>
      if id = slotId then (s.pinCaches id).map PinSafetyCache.clearPositive else s.pinCaches id }

/-- `clear_all_positive_pins`. -/
def ModuleState.clearAllPositivePins (s : ModuleState Objects) : ModuleState Objects :=
  { s with pinCaches := fun id => (s.pinCaches id).map PinSafetyCache.clearPositive }

/-- `invalidate_slot`. -/
def ModuleState.invalidateSlot (s : ModuleState Objects) (slotId : Nat) : ModuleState Objects :=
  { s with tokenCache := Function.update s.tokenCache slotId none }.clearPositive slotId

/-- `token_cache.insert`. -/
def ModuleState.cacheToken (s : ModuleState Objects) (slotId : Nat) (objects : Objects) :
    ModuleState Objects :=
  { s with tokenCache := Function.update s.tokenCache slotId (some objects) }

/-- `saturating_add(1)` on a `CK_ULONG`. -/
def saturatingSucc (maxId n : Nat) : Nat := min (n + 1) maxId

/-- Append a slot under the next id. -/
def ModuleState.pushSlot (s : ModuleState Objects) (maxId : Nat) (name : String) (present : Bool)
    (identity : ReaderIdentity) : ModuleState Objects :=
  { s with
    slots := s.slots ++ [⟨s.nextSlotId, name, present, identity⟩]
    nextSlotId := saturatingSucc maxId s.nextSlotId }

/-! ## §2. Local readers -/

/-- `FineidCardObservation`. -/
inductive FineidCardObservation where
  | present
  | absent
  | temporarilyUnavailable
  deriving Repr, DecidableEq

/-- One enumerated reader, with what the prober answers about it. -/
structure Reading (Objects : Type) where
  name : String
  cardPresent : Bool
  probe : FineidCardObservation
  objects : Option Objects
  identity : ReaderIdentity

/-- The observation a refresh works with. -/
def Reading.observation (r : Reading Objects) : FineidCardObservation :=
  if r.cardPresent then r.probe else .absent

/-- The body of the loop of `refresh_slots_with`. -/
def refreshReader (maxId : Nat) (s : ModuleState Objects) (r : Reading Objects) :
    ModuleState Objects :=
  -- another process owns the reader: no evidence that the card changed or left
  if r.observation = .temporarilyUnavailable then s
  else
    let aidPresent := r.observation = .present
    match s.position r.name with
    | some pos =>
      match s.slots[pos]? with
      | none => s
      | some slot =>
        if aidPresent ∧ slot.cardPresent = false then
          match r.objects with
          | none => s
          | some objects => ((s.setPresent pos true).invalidateSlot slot.id).cacheToken slot.id objects
        else if slot.cardPresent = true ∧ ¬ aidPresent then
          (s.setPresent pos false).invalidateSlot slot.id
        else s
    | none =>
      if aidPresent then
        match r.objects with
        | none => s
        | some objects => (s.pushSlot maxId r.name true r.identity).cacheToken s.nextSlotId objects
      else s

/-- `refresh_slots_with`; `none` when the readers could not be enumerated. -/
def refreshSlotsWith (maxId : Nat) (s : ModuleState Objects)
    (readers : Option (List (Reading Objects))) : ModuleState Objects :=
  match readers with
  | none => s.clearAllPositivePins
  | some readers => readers.foldl (refreshReader maxId) s

/-! ## §3. Paired phones -/

/-- A usable pairing: its id in hexadecimal, the peer's display name, and the token
    objects its offered certificate parses to.  `offering` is whether one is offered. -/
structure RemotePair (Objects : Type) where
  hexId : String
  displayName : String
  offering : Bool
  objects : Option Objects

/-- The reader name of a pairing. -/
def RemotePair.name (pair : RemotePair Objects) : String := "rapp:" ++ pair.hexId

/-- Whether the slot's card is a phone's that is no longer offered. -/
def SlotRecord.withdrawn (slot : SlotRecord) (offering : List String) : Bool :=
  slot.cardPresent && slot.readerName.startsWith "rapp:" && !offering.contains slot.readerName

/-- End the login of a withdrawn slot and invalidate it. -/
def ModuleState.withdraw (s : ModuleState Objects) (id : Nat) : ModuleState Objects :=
  { s with remoteLoggedIn := s.remoteLoggedIn.erase id }.invalidateSlot id

/-- Mark the cards of the withdrawn slots as gone. -/
def ModuleState.markWithdrawn (s : ModuleState Objects) (offering : List String) :
    ModuleState Objects :=
  { s with slots := s.slots.map fun slot =>
      if slot.withdrawn offering then { slot with cardPresent := false } else slot }

/-- Take the cards of the withdrawn slots away. -/
def withdrawSlots (s : ModuleState Objects) (offering : List String) : ModuleState Objects :=
  ((s.slots.filter fun slot => slot.withdrawn offering).map SlotRecord.id).foldl
    ModuleState.withdraw (s.markWithdrawn offering)

/-- The body of the loop over the pairings in `refresh_remote_slots`. -/
def refreshPair (maxId : Nat) (s : ModuleState Objects) (pair : RemotePair Objects) :
    ModuleState Objects :=
  let cardPresent := pair.objects.isSome
  match s.position pair.name with
  | some pos =>
    let updated := s.setPresent pos cardPresent
    match pair.objects, updated.slots[pos]? with
    | some objects, some slot => updated.cacheToken slot.id objects
    | _, _ => updated
  | none =>
    let pushed := s.pushSlot maxId pair.name cardPresent
      ⟨some ("RefineID Remote (" ++ pair.displayName ++ ")"), none⟩
    match pair.objects with
    | some objects => pushed.cacheToken s.nextSlotId objects
    | none => pushed

/-- `refresh_remote_slots`; `none` when the store does not load. -/
def refreshRemoteSlots (maxId : Nat) (s : ModuleState Objects)
    (pairs : Option (List (RemotePair Objects))) : ModuleState Objects :=
  match pairs with
  | none => s
  | some pairs =>
    let offering := (pairs.filter RemotePair.offering).map RemotePair.name
    pairs.foldl (refreshPair maxId) (withdrawSlots s offering)

/-! ## §4. Sessions -/

/-- `open_session`. -/
def openSession (maxId : Nat) (s : ModuleState Objects) (slotId flags : Nat) :
    Nat × ModuleState Objects :=
  (s.nextSessionHandle,
    { s with
      sessions := Function.update s.sessions s.nextSessionHandle (some ⟨slotId, flags⟩)
      nextSessionHandle := saturatingSucc maxId s.nextSessionHandle })

/-- `c_open_session`: a serial session, on a slot that exists and holds a card. -/
def cOpenSession (maxId : Nat) (s : ModuleState Objects) (slotId flags : Nat) :
    Option Nat × ModuleState Objects :=
  if flags.testBit ckfSerialSession = false then (none, s)
  else match s.slot slotId with
    | none => (none, s)
    | some slot =>
      if slot.cardPresent then
        let (handle, s') := openSession maxId s slotId flags
        (some handle, s')
      else (none, s)

/-- `logout`. -/
def logout (s : ModuleState Objects) (slotId : Nat) : ModuleState Objects :=
  { s with remoteLoggedIn := s.remoteLoggedIn.erase slotId }.clearPositive slotId

/-- The handles that can be in use: those already given out. -/
def ModuleState.handles (s : ModuleState Objects) : List Nat :=
  List.range (s.nextSessionHandle + 1)

/-- `forget_login_if_no_sessions`. -/
def forgetLoginIfNoSessions (s : ModuleState Objects) (slotId : Nat) : ModuleState Objects :=
  if s.handles.any fun handle => (s.sessions handle).any fun session => session.slotId == slotId
  then s else logout s slotId

/-- `close_session`. -/
def closeSession (s : ModuleState Objects) (handle : Nat) : Bool × ModuleState Objects :=
  match s.sessions handle with
  | none => (false, s)
  | some session =>
    let removed := { s with sessions := Function.update s.sessions handle none }
    (true, forgetLoginIfNoSessions removed session.slotId)

/-- `close_all_sessions`. -/
def closeAllSessions (s : ModuleState Objects) (slotId : Nat) : ModuleState Objects :=
  logout { s with sessions := fun handle =>
    (s.sessions handle).filter fun session => session.slotId != slotId } slotId

/-- `c_close_all_sessions`: only on a slot that exists. -/
def cCloseAllSessions (s : ModuleState Objects) (slotId : Nat) : ModuleState Objects :=
  match s.slot slotId with
  | none => s
  | some _ => closeAllSessions s slotId

/-! ## §5. Runs -/

/-- What the module does with its state between `C_Initialize` and `C_Finalize`. -/
inductive Op (Objects : Type) where
  | refreshLocal (readers : Option (List (Reading Objects)))
  | refreshRemote (pairs : Option (List (RemotePair Objects)))
  | openSession (slotId flags : Nat)
  | closeSession (handle : Nat)
  | closeAllSessions (slotId : Nat)
  | logout (slotId : Nat)
  | invalidate (slotId : Nat)

/-- The state after one operation. -/
def step (maxId : Nat) (s : ModuleState Objects) : Op Objects → ModuleState Objects
  | .refreshLocal readers => refreshSlotsWith maxId s readers
  | .refreshRemote pairs => refreshRemoteSlots maxId s pairs
  | .openSession slotId flags => (cOpenSession maxId s slotId flags).2
  | .closeSession handle => (closeSession s handle).2
  | .closeAllSessions slotId => cCloseAllSessions s slotId
  | .logout slotId => logout s slotId
  | .invalidate slotId => s.invalidateSlot slotId

/-- The state after a run. -/
def after (maxId : Nat) (ops : List (Op Objects)) : ModuleState Objects :=
  run (step maxId) .initial ops

/-- Whether a reading gets its reader a slot: a card that answers and is read. -/
def Reading.admitted (r : Reading Objects) : Bool :=
  r.observation == .present && r.objects.isSome

/-- The names an operation gives slots to. -/
def admittedNames : Op Objects → List String
  | .refreshLocal (some readers) => (readers.filter Reading.admitted).map Reading.name
  | .refreshRemote (some pairs) => pairs.map RemotePair.name
  | _ => []

/-! ## §6. What a step does to the table -/

/-- What stays of a slot: its id and its reader. -/
def ModuleState.keys (s : ModuleState Objects) : List (Nat × String) :=
  s.slots.map fun slot => (slot.id, slot.readerName)

/-- The readers of the table, in order. -/
def ModuleState.names (s : ModuleState Objects) : List String := s.slots.map SlotRecord.readerName

/-- The ids of the table, in order (`slot_ids`). -/
def ModuleState.slotIds (s : ModuleState Objects) : List Nat := s.slots.map SlotRecord.id

theorem names_eq_keys (s : ModuleState Objects) : s.names = s.keys.map Prod.snd := by
  simp [ModuleState.names, ModuleState.keys]

theorem slotIds_eq_keys (s : ModuleState Objects) : s.slotIds = s.keys.map Prod.fst := by
  simp [ModuleState.slotIds, ModuleState.keys]

/-- The table and its counter as they were. -/
structure Keeps (s s' : ModuleState Objects) : Prop where
  keys : s'.keys = s.keys
  next : s'.nextSlotId = s.nextSlotId

theorem Keeps.refl (s : ModuleState Objects) : Keeps s s := ⟨rfl, rfl⟩

theorem Keeps.trans {s s' s'' : ModuleState Objects} (h : Keeps s s') (h' : Keeps s' s'') :
    Keeps s s'' := ⟨h'.keys.trans h.keys, h'.next.trans h.next⟩

theorem Keeps.names {s s' : ModuleState Objects} (h : Keeps s s') : s'.names = s.names := by
  rw [names_eq_keys, names_eq_keys, h.keys]

/-- A name is interned: it has its slot already, or gets the next id. -/
def Admits (maxId : Nat) (s s' : ModuleState Objects) (name : String) : Prop :=
  (Keeps s s' ∧ name ∈ s.names) ∨
    (name ∉ s.names ∧ s'.keys = s.keys ++ [(s.nextSlotId, name)] ∧
      s'.nextSlotId = saturatingSucc maxId s.nextSlotId)

theorem modify_map {α β : Type} (f : α → α) (g : α → β) (hfg : ∀ a, g (f a) = g a) (l : List α)
    (pos : Nat) : (l.modify pos f).map g = l.map g := by
  induction l generalizing pos with
  | nil => simp
  | cons a l ih =>
    cases pos with
    | zero => simp [hfg]
    | succ pos => simp [ih]

theorem keeps_setPresent (s : ModuleState Objects) (pos : Nat) (present : Bool) :
    Keeps s (s.setPresent pos present) := by
  refine ⟨?_, rfl⟩
  exact modify_map (fun slot : SlotRecord => { slot with cardPresent := present })
    (fun slot => (slot.id, slot.readerName)) (fun _ => rfl) s.slots pos

theorem keeps_invalidateSlot (s : ModuleState Objects) (slotId : Nat) :
    Keeps s (s.invalidateSlot slotId) := ⟨rfl, rfl⟩

theorem keeps_cacheToken (s : ModuleState Objects) (slotId : Nat) (objects : Objects) :
    Keeps s (s.cacheToken slotId objects) := ⟨rfl, rfl⟩

theorem keys_pushSlot (s : ModuleState Objects) (maxId : Nat) (name : String) (present : Bool)
    (identity : ReaderIdentity) :
    (s.pushSlot maxId name present identity).keys = s.keys ++ [(s.nextSlotId, name)] := by
  simp [ModuleState.keys, ModuleState.pushSlot]

theorem position_eq_none {s : ModuleState Objects} {name : String} (h : s.position name = none) :
    name ∉ s.names := by
  unfold ModuleState.position at h
  rw [List.findIdx?_eq_none_iff] at h
  intro hmem
  obtain ⟨slot, hslot, rfl⟩ := List.mem_map.mp hmem
  simpa using h slot hslot

theorem mem_names_of_position {s : ModuleState Objects} {name : String} {pos : Nat}
    (h : s.position name = some pos) : name ∈ s.names := by
  unfold ModuleState.position at h
  obtain ⟨hlt, hname, -⟩ := List.findIdx?_eq_some_iff_getElem.mp h
  rw [beq_iff_eq] at hname
  exact List.mem_map.mpr ⟨_, List.getElem_mem hlt, hname⟩

/-- One reader of a local refresh. -/
theorem refreshReader_table (maxId : Nat) (s : ModuleState Objects) (r : Reading Objects) :
    if r.admitted then Admits maxId s (refreshReader maxId s r) r.name
    else Keeps s (refreshReader maxId s r) := by
  by_cases hadmitted : r.admitted = true
  · rw [if_pos hadmitted]
    obtain ⟨hobs, hobjects⟩ : r.observation = .present ∧ r.objects.isSome = true := by
      simpa [Reading.admitted] using hadmitted
    obtain ⟨objects, hobjects⟩ := Option.isSome_iff_exists.mp hobjects
    unfold refreshReader
    rw [if_neg (by rw [hobs]; decide)]
    cases hpos : s.position r.name with
    | some pos =>
      refine .inl ⟨?_, mem_names_of_position hpos⟩
      dsimp only
      split
      · exact .refl s
      next slot _ =>
        split
        · rw [hobjects]
          exact (keeps_setPresent s pos true).trans
            ((keeps_invalidateSlot _ slot.id).trans (keeps_cacheToken _ slot.id objects))
        · split
          · exact (keeps_setPresent s pos false).trans (keeps_invalidateSlot _ slot.id)
          · exact .refl s
    | none =>
      refine .inr ⟨position_eq_none hpos, ?_⟩
      simp only [hobs, hobjects, if_true]
      exact ⟨keys_pushSlot s maxId r.name true r.identity, rfl⟩
  · rw [if_neg hadmitted]
    unfold refreshReader
    split
    · exact .refl s
    · dsimp only
      split
      next pos _ =>
        split
        · exact .refl s
        next slot _ =>
          split
          · split
            · exact .refl s
            next objects _ =>
              exact (keeps_setPresent s pos true).trans
                ((keeps_invalidateSlot _ slot.id).trans (keeps_cacheToken _ slot.id objects))
          · split
            · exact (keeps_setPresent s pos false).trans (keeps_invalidateSlot _ slot.id)
            · exact .refl s
      · split
        next hpresent =>
          split
          · exact .refl s
          next objects hobjects =>
            -- a reading like this one would have been admitted
            exact absurd (by simp [Reading.admitted, hpresent, hobjects]) hadmitted
        · exact .refl s

/-- One pairing of a remote refresh. -/
theorem refreshPair_table (maxId : Nat) (s : ModuleState Objects) (pair : RemotePair Objects) :
    Admits maxId s (refreshPair maxId s pair) pair.name := by
  unfold refreshPair
  dsimp only
  cases hpos : s.position pair.name with
  | some pos =>
    refine .inl ⟨?_, mem_names_of_position hpos⟩
    dsimp only
    split
    · exact (keeps_setPresent s pos _).trans (keeps_cacheToken _ _ _)
    · exact keeps_setPresent s pos _
  | none =>
    refine .inr ⟨position_eq_none hpos, ?_⟩
    dsimp only
    split
    · exact ⟨keys_pushSlot s maxId pair.name _ _, rfl⟩
    · exact ⟨keys_pushSlot s maxId pair.name _ _, rfl⟩

theorem keeps_withdraw (s : ModuleState Objects) (ids : List Nat) :
    Keeps s (ids.foldl ModuleState.withdraw s) := by
  induction ids generalizing s with
  | nil => exact .refl s
  | cons id ids ih =>
    have hone : Keeps s (s.withdraw id) := ⟨rfl, rfl⟩
    exact hone.trans (ih (s.withdraw id))

theorem keeps_markWithdrawn (s : ModuleState Objects) (offering : List String) :
    Keeps s (s.markWithdrawn offering) := by
  refine ⟨?_, rfl⟩
  unfold ModuleState.keys ModuleState.markWithdrawn
  rw [List.map_map]
  apply List.map_congr_left
  intro slot _
  simp only [Function.comp]
  split <;> rfl

theorem keeps_withdrawSlots (s : ModuleState Objects) (offering : List String) :
    Keeps s (withdrawSlots s offering) :=
  (keeps_markWithdrawn s offering).trans (keeps_withdraw _ _)

/-! ## §7. The table as an interned list -/

/-- The names of the table after an admission. -/
theorem Admits.names {maxId : Nat} {s s' : ModuleState Objects} {name : String}
    (h : Admits maxId s s' name) : s'.names = intern s.names name := by
  rcases h with ⟨hkeeps, hmem⟩ | ⟨hnew, hkeys, -⟩
  · rw [intern_of_mem hmem, hkeeps.names]
  · rw [intern_of_not_mem hnew, names_eq_keys, hkeys, names_eq_keys]
    simp

/-- A table whose ids count up from the base and stop at the largest. -/
structure Numbered (maxId : Nat) (s : ModuleState Objects) : Prop where
  ids : s.slotIds = (List.range s.names.length).map fun i => min (i + 1) maxId
  next : s.nextSlotId = min (s.names.length + 1) maxId

theorem Keeps.numbered {maxId : Nat} {s s' : ModuleState Objects} (h : Keeps s s')
    (hs : Numbered maxId s) : Numbered maxId s' := by
  refine ⟨?_, ?_⟩
  · rw [slotIds_eq_keys, h.keys, ← slotIds_eq_keys, hs.ids, h.names]
  · rw [h.next, hs.next, h.names]

theorem Admits.numbered {maxId : Nat} {s s' : ModuleState Objects} {name : String}
    (h : Admits maxId s s' name) (hs : Numbered maxId s) : Numbered maxId s' := by
  rcases h with ⟨hkeeps, -⟩ | ⟨hnew, hkeys, hnext⟩
  · exact hkeeps.numbered hs
  · have hlen : s'.names.length = s.names.length + 1 := by
      rw [names_eq_keys, hkeys, names_eq_keys]
      simp
    refine ⟨?_, ?_⟩
    · rw [slotIds_eq_keys, hkeys, List.map_append, ← slotIds_eq_keys, hs.ids, hlen,
        List.range_succ, List.map_append, hs.next]
      rfl
    · rw [hnext, hs.next, hlen]
      unfold saturatingSucc
      omega

/-- What the slot table of a step looks like: the names it admits are interned, ids are
    given in order, and no slot is lost or renamed. -/
structure TableStep (maxId : Nat) (s s' : ModuleState Objects) (names : List String) : Prop where
  names : s'.names = internAll s.names names
  numbered : Numbered maxId s → Numbered maxId s'
  grows : s.keys <+: s'.keys

theorem Keeps.tableStep {s s' : ModuleState Objects} (maxId : Nat) (h : Keeps s s') :
    TableStep maxId s s' [] :=
  ⟨h.names, h.numbered, by rw [h.keys]⟩

theorem Admits.tableStep {maxId : Nat} {s s' : ModuleState Objects} {name : String}
    (h : Admits maxId s s' name) : TableStep maxId s s' [name] := by
  refine ⟨h.names, h.numbered, ?_⟩
  rcases h with ⟨hkeeps, -⟩ | ⟨-, hkeys, -⟩
  · rw [hkeeps.keys]
  · rw [hkeys]
    exact ⟨_, rfl⟩

theorem TableStep.trans {maxId : Nat} {s s' s'' : ModuleState Objects} {names names' : List String}
    (h : TableStep maxId s s' names) (h' : TableStep maxId s' s'' names') :
    TableStep maxId s s'' (names ++ names') := by
  refine ⟨?_, fun hs => h'.numbered (h.numbered hs), h.grows.trans h'.grows⟩
  rw [h'.names, h.names, internAll_append]

theorem refreshReaders_table (maxId : Nat) (readers : List (Reading Objects))
    (s : ModuleState Objects) :
    TableStep maxId s (readers.foldl (refreshReader maxId) s)
      ((readers.filter Reading.admitted).map Reading.name) := by
  induction readers generalizing s with
  | nil => exact (Keeps.refl s).tableStep maxId
  | cons r readers ih =>
    have hone := refreshReader_table maxId s r
    rw [List.foldl_cons, List.filter_cons]
    by_cases hadmitted : r.admitted = true
    · rw [if_pos hadmitted] at hone ⊢
      exact hone.tableStep.trans (ih _)
    · rw [if_neg hadmitted] at hone ⊢
      exact (hone.tableStep maxId).trans (ih _)

theorem refreshPairs_table (maxId : Nat) (pairs : List (RemotePair Objects))
    (s : ModuleState Objects) :
    TableStep maxId s (pairs.foldl (refreshPair maxId) s) (pairs.map RemotePair.name) := by
  induction pairs generalizing s with
  | nil => exact (Keeps.refl s).tableStep maxId
  | cons pair pairs ih => exact (refreshPair_table maxId s pair).tableStep.trans (ih _)

theorem keeps_cOpenSession (maxId : Nat) (s : ModuleState Objects) (slotId flags : Nat) :
    Keeps s (cOpenSession maxId s slotId flags).2 := by
  unfold cOpenSession
  split
  · exact .refl s
  · split
    · exact .refl s
    · split
      · exact ⟨rfl, rfl⟩
      · exact .refl s

theorem keeps_closeSession (s : ModuleState Objects) (handle : Nat) :
    Keeps s (closeSession s handle).2 := by
  unfold closeSession
  split
  · exact .refl s
  · dsimp only
    unfold forgetLoginIfNoSessions
    split <;> exact ⟨rfl, rfl⟩

theorem keeps_cCloseAllSessions (s : ModuleState Objects) (slotId : Nat) :
    Keeps s (cCloseAllSessions s slotId) := by
  unfold cCloseAllSessions
  split <;> exact ⟨rfl, rfl⟩

/-- **Every operation interns the names it admits.** -/
theorem step_table (maxId : Nat) (s : ModuleState Objects) (op : Op Objects) :
    TableStep maxId s (step maxId s op) (admittedNames op) := by
  cases op with
  | refreshLocal readers =>
    cases readers with
    | none => exact Keeps.tableStep maxId ⟨rfl, rfl⟩
    | some readers => exact refreshReaders_table maxId readers s
  | refreshRemote pairs =>
    cases pairs with
    | none => exact (Keeps.refl s).tableStep maxId
    | some pairs =>
      exact ((keeps_withdrawSlots s _).tableStep maxId).trans (refreshPairs_table maxId pairs _)
  | openSession slotId flags => exact (keeps_cOpenSession maxId s slotId flags).tableStep maxId
  | closeSession handle => exact (keeps_closeSession s handle).tableStep maxId
  | closeAllSessions slotId => exact (keeps_cCloseAllSessions s slotId).tableStep maxId
  | logout slotId => exact Keeps.tableStep maxId ⟨rfl, rfl⟩
  | invalidate slotId => exact Keeps.tableStep maxId ⟨rfl, rfl⟩

/-- **Every run interns the names its operations admit**, in order. -/
theorem run_table (maxId : Nat) (s : ModuleState Objects) (ops : List (Op Objects)) :
    TableStep maxId s (run (step maxId) s ops) (ops.flatMap admittedNames) := by
  induction ops generalizing s with
  | nil => exact (Keeps.refl s).tableStep maxId
  | cons op ops ih => exact (step_table maxId s op).trans (ih _)

theorem numbered_initial {maxId : Nat} (hmax : 0 < maxId) :
    Numbered maxId (ModuleState.initial : ModuleState Objects) := by
  refine ⟨rfl, ?_⟩
  show 1 = min (0 + 1) maxId
  omega

theorem numbered_after {maxId : Nat} (hmax : 0 < maxId) (ops : List (Op Objects)) :
    Numbered maxId (after maxId ops) :=
  (run_table maxId .initial ops).numbered (numbered_initial hmax)

theorem names_after (maxId : Nat) (ops : List (Op Objects)) :
    (after maxId ops).names = internAll [] (ops.flatMap admittedNames) :=
  (run_table maxId .initial ops).names

/-- Ids that count up to a largest are distinct as long as they have not reached it twice. -/
theorem nodup_saturated {maxId : Nat} (hmax : 0 < maxId) (n : Nat) :
    ((List.range n).map fun i => min (i + 1) maxId).Nodup ↔ n ≤ maxId := by
  constructor
  · intro h
    by_contra hlt
    -- the places `maxId - 1` and `maxId` both hold the largest id
    have hsame := List.inj_on_of_nodup_map h (x := maxId - 1) (y := maxId)
      (List.mem_range.mpr (by omega)) (List.mem_range.mpr (by omega)) (by omega)
    omega
  · intro hle
    refine List.Nodup.map_on ?_ List.nodup_range
    intro i hi j hj heq
    rw [List.mem_range] at hi hj
    omega

/-! ## §8. Sessions -/

/-- Every open session refers to a slot of the table. -/
def SessionsRefer (s : ModuleState Objects) : Prop :=
  ∀ handle session, s.sessions handle = some session → session.slotId ∈ s.slotIds

theorem mem_slotIds_of_slot {s : ModuleState Objects} {id : Nat} {slot : SlotRecord}
    (h : s.slot id = some slot) : id ∈ s.slotIds := by
  unfold ModuleState.slot at h
  have hid := List.find?_some h
  rw [beq_iff_eq] at hid
  exact List.mem_map.mpr ⟨slot, List.mem_of_find?_eq_some h, hid⟩

theorem mem_slotIds_of_grows {s s' : ModuleState Objects} (h : s.keys <+: s'.keys) {id : Nat}
    (hid : id ∈ s.slotIds) : id ∈ s'.slotIds := by
  rw [slotIds_eq_keys] at hid ⊢
  exact (h.map Prod.fst).subset hid

/-- A step whose sessions were all open before, or that opens one on a slot it found. -/
theorem SessionsRefer.of_old {s s' : ModuleState Objects} (hs : SessionsRefer s)
    (hgrows : s.keys <+: s'.keys)
    (hold : ∀ handle session, s'.sessions handle = some session →
      s.sessions handle = some session ∨ session.slotId ∈ s.slotIds) : SessionsRefer s' := by
  intro handle session hsession
  apply mem_slotIds_of_grows hgrows
  rcases hold handle session hsession with h | h
  · exact hs handle session h
  · exact h

theorem sessions_refreshReaders (maxId : Nat) (readers : List (Reading Objects))
    (s : ModuleState Objects) :
    (readers.foldl (refreshReader maxId) s).sessions = s.sessions := by
  induction readers generalizing s with
  | nil => rfl
  | cons r readers ih =>
    rw [List.foldl_cons, ih]
    unfold refreshReader
    dsimp only
    repeat' split
    all_goals rfl

theorem sessions_refreshPairs (maxId : Nat) (pairs : List (RemotePair Objects))
    (s : ModuleState Objects) :
    (pairs.foldl (refreshPair maxId) s).sessions = s.sessions := by
  induction pairs generalizing s with
  | nil => rfl
  | cons pair pairs ih =>
    rw [List.foldl_cons, ih]
    unfold refreshPair
    dsimp only
    repeat' split
    all_goals rfl

theorem sessions_withdraw (ids : List Nat) (s : ModuleState Objects) :
    (ids.foldl ModuleState.withdraw s).sessions = s.sessions := by
  induction ids generalizing s with
  | nil => rfl
  | cons id ids ih => exact ih (s.withdraw id)

/-- What the sessions of a step can be. -/
theorem step_sessions (maxId : Nat) (s : ModuleState Objects) (op : Op Objects) (handle : Nat)
    (session : Session) (h : (step maxId s op).sessions handle = some session) :
    s.sessions handle = some session ∨ session.slotId ∈ s.slotIds := by
  cases op with
  | refreshLocal readers =>
    cases readers with
    | none => exact .inl h
    | some readers =>
      left
      rwa [← sessions_refreshReaders maxId readers s]
  | refreshRemote pairs =>
    cases pairs with
    | none => exact .inl h
    | some pairs =>
      left
      have hsessions : (step maxId s (.refreshRemote (some pairs))).sessions = s.sessions := by
        show (pairs.foldl (refreshPair maxId) _).sessions = s.sessions
        rw [sessions_refreshPairs]
        exact sessions_withdraw _ (s.markWithdrawn _)
      rwa [hsessions] at h
  | openSession slotId flags =>
    dsimp only [step, cOpenSession] at h
    split at h
    · exact .inl h
    · split at h
      · exact .inl h
      next slot hslot =>
        split at h
        · have hopen : Function.update s.sessions s.nextSessionHandle (some ⟨slotId, flags⟩)
              handle = some session := h
          by_cases heq : handle = s.nextSessionHandle
          · rw [heq, Function.update_self] at hopen
            obtain rfl := Option.some.inj hopen
            exact .inr (mem_slotIds_of_slot hslot)
          · rw [Function.update_of_ne heq] at hopen
            exact .inl hopen
        · exact .inl h
  | closeSession closed =>
    left
    dsimp only [step, closeSession] at h
    split at h
    · exact h
    · dsimp only [forgetLoginIfNoSessions] at h
      have hkept : (Function.update s.sessions closed none) handle = some session := by
        split at h <;> exact h
      by_cases heq : handle = closed
      · rw [heq, Function.update_self] at hkept
        cases hkept
      · rwa [Function.update_of_ne heq] at hkept
  | closeAllSessions slotId =>
    left
    dsimp only [step, cCloseAllSessions] at h
    split at h
    · exact h
    · exact (Option.filter_eq_some_iff.mp h).1
  | logout slotId => exact .inl h
  | invalidate slotId => exact .inl h

/-- **Every open session refers to an existing slot**, in every state reached. -/
theorem sessionsRefer_after (maxId : Nat) (ops : List (Op Objects)) :
    SessionsRefer (after maxId ops) := by
  refine run_invariant (P := SessionsRefer) (fun s op hs => ?_) ?_ ops
  · exact hs.of_old (step_table maxId s op).grows (step_sessions maxId s op)
  · intro handle session h
    cases h

/-! ## §9. Stability over runs -/

/-- `CK_ULONG` on the targets the module is built for. -/
inductive CkUlong where
  | bits32
  | bits64
  deriving Repr, DecidableEq

/-- `CK_ULONG::MAX`. -/
def CkUlong.max : CkUlong → Nat
  | .bits32 => 2 ^ 32 - 1
  | .bits64 => 2 ^ 64 - 1

theorem CkUlong.max_pos (target : CkUlong) : 0 < target.max := by
  cases target <;> decide

/-- What a run's callers rely on, in every state it reaches. -/
structure Stable (maxId : Nat) (ops : List (Op Objects)) : Prop where
  /-- The table only grows. -/
  grows : ∀ before later, ops = before ++ later →
    (after maxId before).keys <+: (after maxId ops).keys
  /-- A reader keeps the id it was first given. -/
  keeps : ∀ before later, ops = before ++ later → ∀ id name, (id, name) ∈ (after maxId before).keys →
    ∀ id', (id', name) ∈ (after maxId ops).keys → id' = id
  /-- No two slots have the same id. -/
  ids : ∀ before later, ops = before ++ later → (after maxId before).slotIds.Nodup
  /-- No two slots have the same reader. -/
  readers : ∀ before later, ops = before ++ later → (after maxId before).names.Nodup
  /-- Every open session refers to an existing slot. -/
  sessions : ∀ before later, ops = before ++ later → SessionsRefer (after maxId before)

theorem grows_after (maxId : Nat) (before later : List (Op Objects)) :
    (after maxId before).keys <+: (after maxId (before ++ later)).keys := by
  unfold after
  rw [run_append]
  exact (run_table maxId _ later).grows

theorem readers_nodup (maxId : Nat) (ops : List (Op Objects)) : (after maxId ops).names.Nodup := by
  rw [names_after]
  exact internAll_nodup List.nodup_nil _

/-- Two slots of one reader are one slot. -/
theorem eq_of_mem_keys {s : ModuleState Objects} (h : s.names.Nodup) {id id' : Nat} {name : String}
    (hid : (id, name) ∈ s.keys) (hid' : (id', name) ∈ s.keys) : id' = id := by
  rw [names_eq_keys] at h
  exact congrArg Prod.fst (List.inj_on_of_nodup_map h hid' hid rfl)

theorem length_names (maxId : Nat) (ops : List (Op Objects)) :
    (after maxId ops).names.length = (ops.flatMap admittedNames).dedup.length := by
  rw [names_after, length_internAll]

theorem length_names_mono (maxId : Nat) (before later : List (Op Objects)) :
    (after maxId before).names.length ≤ (after maxId (before ++ later)).names.length := by
  rw [names_eq_keys, names_eq_keys, List.length_map, List.length_map]
  exact (grows_after maxId before later).length_le

/-- The ids of a run are distinct as long as there are enough of them. -/
theorem slotIds_nodup_iff {maxId : Nat} (hmax : 0 < maxId) (ops : List (Op Objects)) :
    (after maxId ops).slotIds.Nodup ↔ (ops.flatMap admittedNames).dedup.length ≤ maxId := by
  rw [(numbered_after hmax ops).ids, nodup_saturated hmax, length_names]

/-- The run is stable exactly when its readers do not outnumber the ids. -/
theorem stable_iff {maxId : Nat} (hmax : 0 < maxId) (ops : List (Op Objects)) :
    Stable maxId ops ↔ (ops.flatMap admittedNames).dedup.length ≤ maxId := by
  constructor
  · intro h
    exact (slotIds_nodup_iff hmax ops).mp (h.ids ops [] (List.append_nil ops).symm)
  · intro hroom
    refine ⟨?_, ?_, ?_, ?_, ?_⟩
    · rintro before later rfl
      exact grows_after maxId before later
    · rintro before later rfl id name hid id' hid'
      exact eq_of_mem_keys (readers_nodup maxId _) ((grows_after maxId before later).subset hid) hid'
    · rintro before later rfl
      rw [slotIds_nodup_iff hmax, ← length_names maxId]
      rw [← length_names maxId] at hroom
      exact le_trans (length_names_mono maxId before later) hroom
    · intro before later _
      exact readers_nodup maxId before
    · intro before later _
      exact sessionsRefer_after maxId before

/-- **The slot table is stable exactly while the readers do not outnumber the ids.**
    Past the largest `CK_ULONG` the counter stands still and every further reader is given
    that same id. -/
theorem slots_stable_iff (target : CkUlong) (ops : List (Op Objects)) :
    Stable target.max ops ↔ (ops.flatMap admittedNames).dedup.length ≤ target.max :=
  stable_iff target.max_pos ops

/-- The name of one of many readers. -/
def manyName (i : Nat) : String := String.ofList ("Reader ".toList ++ Nat.toDigits 10 i)

/-- One of many readers, with a card that is read. -/
def manyReading (i : Nat) : Reading Unit where
  name := manyName i
  cardPresent := true
  probe := .present
  objects := some ()
  identity := ⟨none, none⟩

/-- Refreshes that each find another reader, one more of them than there are ids. -/
def manyRefreshes (maxId : Nat) : List (Op Unit) :=
  (List.range (maxId + 1)).map fun i => .refreshLocal (some [manyReading i])

theorem manyName_injective : Function.Injective manyName := by
  intro i j h
  have hdigits := List.append_cancel_left (String.ofList_injective h)
  have hvalue := congrArg (Nat.ofDigitChars 10 · 0) hdigits
  simpa only [Nat.ofDigitChars_ten_toDigits] using hvalue

theorem manyRefreshes_names (maxId : Nat) :
    ((manyRefreshes maxId).flatMap admittedNames).dedup.length = maxId + 1 := by
  have hnames : (manyRefreshes maxId).flatMap admittedNames =
      (List.range (maxId + 1)).map manyName := by
    rw [manyRefreshes, List.flatMap_map, List.map_eq_flatMap]
    rfl
  rw [hnames, List.Nodup.dedup (List.nodup_range.map manyName_injective), List.length_map,
    List.length_range]

/-- When one reader more has been seen than a 32-bit `CK_ULONG` counts, two slots share an
    id. -/
theorem manyRefreshes_unstable :
    ¬ Stable CkUlong.bits32.max (manyRefreshes CkUlong.bits32.max) := by
  rw [stable_iff CkUlong.bits32.max_pos, manyRefreshes_names]
  omega

end RefineId.Slots
