/-
  RefineId.SessionOperations — searches and signatures in the PKCS#11 sessions.
  ════════════════════════════════════════════════════════════════════════════

  `crates/refineid-pkcs11/src/api.rs`: a session has at most one search, one signature and
  one verification under way.  `C_Sign` frees the module's lock while the card works, so
  here it is two calls with anything in between; the second looks the session up again.
  The calls lie between `C_Initialize` and `C_Finalize`; these two are in `SessionLifetime`.

  The slot table and its sessions are those of `Slots`; what reading a card or the pairing
  store comes to is an input of the call.  NULL pointers for results are left out.

  Main results:
    • `nodup_matchingHandles` : a search finds no handle twice.
    • `call_advances`         : a call advances the operations of one session, and no others.
    • `call_sessionsMove`     : what a call does to the table of sessions.
-/
import RefineId.Slots

namespace RefineId.SessionOperations

open Lib Slots

/-! ## §1. Tokens and their objects -/

/-- The return values of the modelled calls that refuse; `other` is one that reading a token
    or the card comes to. -/
inductive CkRv where
  | argumentsBad
  | cryptokiAlreadyInitialized
  | cryptokiNotInitialized
  | deviceError
  | keyHandleInvalid
  | mechanismInvalid
  | operationActive
  | operationNotInitialized
  | sessionClosed
  | sessionHandleInvalid
  | sessionParallelNotSupported
  | other (code : Nat)
  deriving Repr, DecidableEq

/-- `Mechanism`. -/
inductive Mechanism where
  | rsaPkcs
  | ecdsa
  deriving Repr, DecidableEq

/-- `Mechanism::signature_len`. -/
def Mechanism.signatureLen : Mechanism → Nat
  | .rsaPkcs => 384
  | .ecdsa => 96

/-- `Mechanism::from_ck_type`. -/
def Mechanism.fromCkType (mechanism : Nat) : Option Mechanism :=
  if mechanism = 0x0001 then some .rsaPkcs
  else if mechanism = 0x1041 then some .ecdsa
  else none

/-- `ObjectKind`. -/
inductive ObjectKind where
  | certificate
  | privateKey
  | publicKey
  | ca (idx : Nat)
  deriving Repr, DecidableEq

/-- `OBJ_PRIVATE_KEY`. -/
def objPrivateKey : Nat := 2

/-- `OBJ_PUBLIC_KEY`. -/
def objPublicKey : Nat := 3

/-- `OBJ_CA_BASE`. -/
def objCaBase : Nat := 4

/-- `ObjectKind::handle`; `maxId` is the widest `CK_ULONG`. -/
def ObjectKind.handle (maxId : Nat) : ObjectKind → Nat
  | .certificate => 1
  | .privateKey => objPrivateKey
  | .publicKey => objPublicKey
  | .ca idx => min (objCaBase + if idx ≤ maxId then idx else maxId) maxId

/-- `AttrValue`: its octets, or a value that is withheld. -/
inductive AttrValue where
  | concrete (bytes : List UInt8)
  | sensitive
  deriving Repr, DecidableEq

/-- `AttrValue::as_bytes`. -/
def AttrValue.asBytes : AttrValue → Option (List UInt8)
  | .concrete bytes => some bytes
  | .sensitive => none

/-- `TokenObjects`: the number of its CA certificates, its attributes and its verification,
    as they are computed from the certificates. -/
structure TokenObjects where
  mechanism : Mechanism
  caObjects : Nat
  attributeOf : ObjectKind → Nat → Option AttrValue
  verifySignature : Mechanism → List UInt8 → List UInt8 → Option CkRv

/-- `object_exists`. -/
def TokenObjects.objectExists (token : TokenObjects) : ObjectKind → Bool
  | .ca idx => idx < token.caObjects
  | _ => true

/-- `all_object_kinds`. -/
def TokenObjects.allObjectKinds (token : TokenObjects) : List ObjectKind :=
  [.certificate, .publicKey, .privateKey] ++ (List.range token.caObjects).map .ca

/-- `matches`: a template of attribute types and wanted values. -/
def TokenObjects.isMatch (token : TokenObjects) (kind : ObjectKind)
    (template : List (Nat × List UInt8)) : Bool :=
  token.objectExists kind && template.all fun entry =>
    (token.attributeOf kind entry.1).any fun value => value.asBytes == some entry.2

/-- `matching_handles`. -/
def matchingHandles (maxId : Nat) (token : TokenObjects) (template : List (Nat × List UInt8)) :
    List Nat :=
  (token.allObjectKinds.filter fun kind => token.isMatch kind template).map
    (ObjectKind.handle maxId)

/-- **A search finds no handle twice**, while the handles of the CA certificates fit. -/
theorem nodup_matchingHandles {maxId : Nat} {token : TokenObjects}
    (h : objCaBase + token.caObjects ≤ maxId + 1) (template : List (Nat × List UInt8)) :
    (matchingHandles maxId token template).Nodup := by
  have hca : ∀ idx, idx < token.caObjects →
      ObjectKind.handle maxId (.ca idx) = objCaBase + idx := by
    intro idx hidx
    have hfits : idx ≤ maxId := by omega
    rw [ObjectKind.handle, if_pos hfits]
    omega
  have hkinds : (token.allObjectKinds.map (ObjectKind.handle maxId)).Nodup := by
    have hcas : ((List.range token.caObjects).map ObjectKind.ca).map (ObjectKind.handle maxId) =
        (List.range token.caObjects).map fun idx => objCaBase + idx := by
      rw [List.map_map]
      apply List.map_congr_left
      intro idx hidx
      exact hca idx (List.mem_range.mp hidx)
    rw [TokenObjects.allObjectKinds, List.map_append, hcas, List.nodup_append]
    refine ⟨?_, ?_, ?_⟩
    · show [1, objPublicKey, objPrivateKey].Nodup
      decide
    · exact List.nodup_range.map fun i j hij => Nat.add_left_cancel hij
    · intro low hlow high hhigh
      obtain ⟨idx, -, rfl⟩ := List.mem_map.mp hhigh
      have hbelow : ∀ low ∈ [1, objPublicKey, objPrivateKey], low < objCaBase := by decide
      have := hbelow low hlow
      omega
  exact hkinds.sublist (List.filter_sublist.map _)

/-! ## §2. State and calls -/

/-- The fields `find`, `sign` and `verify` of a `Session`. -/
structure Operations where
  find : Option (List Nat)
  sign : Option Mechanism
  verify : Option Mechanism
  deriving Repr, DecidableEq

/-- A session as it is opened. -/
def Operations.fresh : Operations := ⟨none, none, none⟩

/-- `next_find_batch`. -/
def Operations.nextFindBatch (o : Operations) (max : Nat) : Option (List Nat × Operations) :=
  o.find.map fun remaining =>
    let wanted := min max remaining.length
    (remaining.take wanted, { o with find := some (remaining.drop wanted) })

/-- What `C_Sign` takes with it when it frees the lock. -/
structure CardRequest where
  session : Nat
  readerName : String
  mechanism : Mechanism
  input : List UInt8
  capacity : Nat
  deriving Repr, DecidableEq

/-- The module, the operations of its sessions, and the calls that wait for a card. -/
structure State where
  moduleState : ModuleState TokenObjects
  operations : Nat → Operations
  inFlight : List CardRequest

/-- The state after `C_Initialize`, before the first refresh. -/
def State.initial : State := ⟨.initial, fun _ => .fresh, []⟩

/-- The operations of one session anew. -/
def State.set (s : State) (handle : Nat) (o : Operations) : State :=
  { s with operations := Function.update s.operations handle o }

/-- What a call comes to: what it hands out, takes up or gives to the card. -/
inductive Reply where
  | refused (rv : CkRv)
  | done
  | searching (found : List Nat)
  | handles (batch : List Nat)
  | signing (mechanism : Mechanism)
  | length (needed : Nat)
  | bufferTooSmall (needed : Nat)
  | sent (request : CardRequest)
  | signature (bytes : List UInt8)
  deriving Repr, DecidableEq

/-- What a caller of `C_Sign` passes for the signature: no length, a NULL buffer, or room. -/
inductive Buffer where
  | noLength
  | query
  | room (capacity : Nat)
  deriving Repr, DecidableEq

section
variable (maxId : Nat)

/-- `ensure_token`; `built` is what reading the token comes to when it is not cached. -/
def ensureToken (m : ModuleState TokenObjects) (slotId : Nat) (built : Except CkRv TokenObjects) :
    Except CkRv TokenObjects × ModuleState TokenObjects :=
  match m.tokenCache slotId with
  | some cached => (.ok cached, m)
  | none =>
    match m.slot slotId, built with
    | none, _ => (.error .deviceError, m)
    | some _, .error rv => (.error rv, m)
    | some _, .ok objects => (.ok objects, m.cacheToken slotId objects)

/-- `c_find_objects_init`; no template stands for a NULL one with entries. -/
def cFindObjectsInit (s : State) (handle : Nat) (template : Option (List (Nat × List UInt8)))
    (built : Except CkRv TokenObjects) : Reply × State :=
  match template, s.moduleState.sessions handle with
  | none, _ => (.refused .argumentsBad, s)
  | some _, none => (.refused .sessionHandleInvalid, s)
  | some template, some session =>
    match ensureToken s.moduleState session.slotId built with
    | (.error rv, m) => (.refused rv, { s with moduleState := m })
    | (.ok token, m) =>
      let found := matchingHandles maxId token template
      (.searching found,
        { s with moduleState := m }.set handle { s.operations handle with find := some found })

/-- `c_find_objects`. -/
def cFindObjects (s : State) (handle maxCount : Nat) : Reply × State :=
  match s.moduleState.sessions handle with
  | none => (.refused .sessionHandleInvalid, s)
  | some _ =>
    match (s.operations handle).nextFindBatch maxCount with
    | none => (.refused .operationNotInitialized, s)
    | some (batch, o) => (.handles batch, s.set handle o)

/-- `c_find_objects_final`. -/
def cFindObjectsFinal (s : State) (handle : Nat) : Reply × State :=
  match s.moduleState.sessions handle with
  | none => (.refused .sessionHandleInvalid, s)
  | some _ =>
    (if (s.operations handle).find.isSome then .done else .refused .operationNotInitialized,
      s.set handle { s.operations handle with find := none })

/-- `c_sign_init`; no mechanism stands for a NULL one. -/
def cSignInit (s : State) (handle : Nat) (mechanism : Option Nat) (key : Nat)
    (built : Except CkRv TokenObjects) : Reply × State :=
  match mechanism with
  | none => (.refused .argumentsBad, s)
  | some requested =>
    if key ≠ objPrivateKey then (.refused .keyHandleInvalid, s)
    else match Mechanism.fromCkType requested, s.moduleState.sessions handle with
      | none, _ => (.refused .mechanismInvalid, s)
      | some _, none => (.refused .sessionHandleInvalid, s)
      | some requested, some session =>
        if (s.operations handle).sign.isSome then (.refused .operationActive, s)
        else match ensureToken s.moduleState session.slotId built with
          | (.error rv, m) => (.refused rv, { s with moduleState := m })
          | (.ok token, m) =>
            if token.mechanism ≠ requested then
              (.refused .mechanismInvalid, { s with moduleState := m })
            else
              (.signing requested,
                { s with moduleState := m }.set handle
                  { s.operations handle with sign := some requested })

/-- `clear_sign`. -/
def clearSign (s : State) (handle : Nat) : State :=
  match s.moduleState.sessions handle with
  | none => s
  | some _ => s.set handle { s.operations handle with sign := none }

/-- `c_sign` up to the card; `cache` is what `pin_cache` comes to on a slot that has none. -/
def cSign (s : State) (handle : Nat) (input : List UInt8) (buffer : Buffer)
    (cache : Except CkRv PinCache.PinSafetyCache) : Reply × State :=
  match buffer with
  | .noLength => (.refused .argumentsBad, s)
  | .query =>
    match s.moduleState.sessions handle, (s.operations handle).sign with
    | none, _ => (.refused .sessionHandleInvalid, s)
    | some _, none => (.refused .operationNotInitialized, s)
    | some _, some mechanism => (.length mechanism.signatureLen, s)
  | .room capacity =>
    match s.moduleState.sessions handle, (s.operations handle).sign with
    | none, _ => (.refused .sessionHandleInvalid, s)
    | some _, none => (.refused .operationNotInitialized, s)
    | some session, some mechanism =>
      if capacity < mechanism.signatureLen then (.bufferTooSmall mechanism.signatureLen, s)
      else match s.moduleState.slot session.slotId with
        | none => (.refused .deviceError, clearSign s handle)
        | some slot =>
          let request : CardRequest := ⟨handle, slot.readerName, mechanism, input, capacity⟩
          match s.moduleState.pinCaches session.slotId, cache with
          | none, .error rv => (.refused rv, clearSign s handle)
          | none, .ok cache =>
            (.sent request, clearSign
              { s with
                moduleState := { s.moduleState with
                  pinCaches := Function.update s.moduleState.pinCaches session.slotId (some cache) }
                inFlight := s.inFlight ++ [request] } handle)
          | some _, _ =>
            (.sent request, clearSign { s with inFlight := s.inFlight ++ [request] } handle)

/-- `c_sign` after the card, while there is a module: the session is looked up again, and
    `deliver_bytes`. -/
def cSignReturn (s : State) (request : CardRequest) (outcome : Except CkRv (List UInt8)) : Reply :=
  match outcome, s.moduleState.sessions request.session with
  | .error rv, _ => .refused rv
  | .ok _, none => .refused .sessionClosed
  | .ok bytes, some _ =>
    if request.capacity < bytes.length then .bufferTooSmall bytes.length else .signature bytes

/-- `c_verify_init`. -/
def cVerifyInit (s : State) (handle : Nat) (mechanism : Option Nat) (key : Nat)
    (built : Except CkRv TokenObjects) : Reply × State :=
  match mechanism with
  | none => (.refused .argumentsBad, s)
  | some requested =>
    if key ≠ objPublicKey then (.refused .keyHandleInvalid, s)
    else match Mechanism.fromCkType requested, s.moduleState.sessions handle with
      | none, _ => (.refused .mechanismInvalid, s)
      | some _, none => (.refused .sessionHandleInvalid, s)
      | some requested, some session =>
        if (s.operations handle).verify.isSome then (.refused .operationActive, s)
        else match ensureToken s.moduleState session.slotId built with
          | (.error rv, m) => (.refused rv, { s with moduleState := m })
          | (.ok token, m) =>
            if token.mechanism ≠ requested then
              (.refused .mechanismInvalid, { s with moduleState := m })
            else
              (.done, { s with moduleState := m }.set handle
                { s.operations handle with verify := some requested })

/-- `c_verify`: the operation ends whatever the outcome. -/
def cVerify (s : State) (handle : Nat) (input signature : List UInt8)
    (built : Except CkRv TokenObjects) : Reply × State :=
  match s.moduleState.sessions handle, (s.operations handle).verify with
  | none, _ => (.refused .sessionHandleInvalid, s)
  | some _, none => (.refused .operationNotInitialized, s)
  | some session, some mechanism =>
    match ensureToken s.moduleState session.slotId built with
    | (.error rv, m) => (.refused rv, { s with moduleState := m })
    | (.ok token, m) =>
      (match token.verifySignature mechanism input signature with
        | none => .done
        | some rv => .refused rv,
        { s with moduleState := m }.set handle { s.operations handle with verify := none })

/-- A call of the host, or the end of a card's work.  The calls of the slot table are those of
    the module without operations. -/
inductive Call where
  | table (op : Op TokenObjects)
  | findObjectsInit (handle : Nat) (template : Option (List (Nat × List UInt8)))
      (built : Except CkRv TokenObjects)
  | findObjects (handle maxCount : Nat)
  | findObjectsFinal (handle : Nat)
  | signInit (handle : Nat) (mechanism : Option Nat) (key : Nat)
      (built : Except CkRv TokenObjects)
  | sign (handle : Nat) (input : List UInt8) (buffer : Buffer)
      (cache : Except CkRv PinCache.PinSafetyCache)
  | signReturn (position : Nat) (outcome : Except CkRv (List UInt8))
  | verifyInit (handle : Nat) (mechanism : Option Nat) (key : Nat)
      (built : Except CkRv TokenObjects)
  | verify (handle : Nat) (input signature : List UInt8) (built : Except CkRv TokenObjects)

/-- The slot table's calls: a session that is opened has nothing under way. -/
def tableCall (s : State) (op : Op TokenObjects) : State :=
  match op with
  | .openSession slotId flags =>
    match cOpenSession maxId s.moduleState slotId flags with
    | (none, m) => { s with moduleState := m }
    | (some handle, m) => { s with moduleState := m }.set handle .fresh
  | op => { s with moduleState := Slots.step maxId s.moduleState op }

/-- One call. -/
def call (s : State) : Call → Reply × State
  | .table op => (.done, tableCall maxId s op)
  | .findObjectsInit handle template built => cFindObjectsInit maxId s handle template built
  | .findObjects handle maxCount => cFindObjects s handle maxCount
  | .findObjectsFinal handle => cFindObjectsFinal s handle
  | .signInit handle mechanism key built => cSignInit s handle mechanism key built
  | .sign handle input buffer cache => cSign s handle input buffer cache
  | .signReturn position outcome =>
    match s.inFlight[position]? with
    | none => (.done, s)
    | some request =>
      (cSignReturn s request outcome, { s with inFlight := s.inFlight.eraseIdx position })
  | .verifyInit handle mechanism key built => cVerifyInit s handle mechanism key built
  | .verify handle input signature built => cVerify s handle input signature built

end

/-- The session a call is about; opening is about the session it opens. -/
def Call.session (s : State) : Call → Nat
  | .table _ => s.moduleState.nextSessionHandle
  | .findObjectsInit handle _ _ => handle
  | .findObjects handle _ => handle
  | .findObjectsFinal handle => handle
  | .signInit handle _ _ _ => handle
  | .sign handle _ _ _ => handle
  | .signReturn _ _ => 0
  | .verifyInit handle _ _ _ => handle
  | .verify handle _ _ _ => handle

section
variable {maxId : Nat}

/-! ## §3. What a call does to the operations -/

/-- Replies that hand out nothing, take up nothing and give nothing to the card. -/
def Reply.isQuiet : Reply → Bool
  | .searching _ => false
  | .handles _ => false
  | .signing _ => false
  | .sent _ => false
  | _ => true

/-- How the operations of the session a call is about go on. -/
inductive Advances (o : Operations) : Reply → Operations → Prop where
  | searching (found : List Nat) : Advances o (.searching found) { o with find := some found }
  | handles (batch rest : List Nat) (hfind : o.find = some (batch ++ rest)) :
      Advances o (.handles batch) { o with find := some rest }
  | signing (mechanism : Mechanism) (hidle : o.sign = none) :
      Advances o (.signing mechanism) { o with sign := some mechanism }
  | sent (request : CardRequest) (hactive : o.sign = some request.mechanism) :
      Advances o (.sent request) { o with sign := none }
  | quiet (reply : Reply) (o' : Operations) (hreply : reply.isQuiet = true)
      (hfind : o'.find = o.find ∨ o'.find = none) (hsign : o'.sign = o.sign ∨ o'.sign = none) :
      Advances o reply o'

theorem Advances.stays (o : Operations) {reply : Reply} (h : reply.isQuiet = true) :
    Advances o reply o := .quiet reply o h (.inl rfl) (.inl rfl)

/-- The operations of one session advance with the reply, and those of the others stay. -/
def Moves (s : State) (handle : Nat) (result : Reply × State) : Prop :=
  ∃ o', result.2.operations = Function.update s.operations handle o' ∧
    Advances (s.operations handle) result.1 o'

theorem moves_stays {s s' : State} (handle : Nat) {reply : Reply} (hquiet : reply.isQuiet = true)
    (h : s'.operations = s.operations) : Moves s handle (reply, s') := by
  refine ⟨s.operations handle, ?_, .stays _ hquiet⟩
  show s'.operations = _
  rw [h, Function.update_eq_self]

theorem findObjectsInit_moves (s : State) (handle : Nat)
    (template : Option (List (Nat × List UInt8))) (built : Except CkRv TokenObjects) :
    Moves s handle (cFindObjectsInit maxId s handle template built) := by
  unfold cFindObjectsInit
  split
  · exact moves_stays handle rfl rfl
  · exact moves_stays handle rfl rfl
  · split
    · exact moves_stays handle rfl rfl
    next token _ _ => exact ⟨_, rfl, .searching _⟩

theorem findObjects_moves (s : State) (handle maxCount : Nat) :
    Moves s handle (cFindObjects s handle maxCount) := by
  unfold cFindObjects
  split
  · exact moves_stays handle rfl rfl
  · split
    · exact moves_stays handle rfl rfl
    next batch o hbatch =>
      obtain ⟨remaining, hfind, heq⟩ := Option.map_eq_some_iff.mp hbatch
      cases heq
      refine ⟨_, rfl, .handles _ _ ?_⟩
      rw [hfind, List.take_append_drop]

theorem findObjectsFinal_moves (s : State) (handle : Nat) :
    Moves s handle (cFindObjectsFinal s handle) := by
  unfold cFindObjectsFinal
  split
  · exact moves_stays handle rfl rfl
  · refine ⟨_, rfl, .quiet _ _ ?_ (.inr rfl) (.inl rfl)⟩
    dsimp only
    split <;> rfl

theorem signInit_moves (s : State) (handle : Nat) (mechanism : Option Nat) (key : Nat)
    (built : Except CkRv TokenObjects) :
    Moves s handle (cSignInit s handle mechanism key built) := by
  unfold cSignInit
  split
  · exact moves_stays handle rfl rfl
  · split
    · exact moves_stays handle rfl rfl
    · split
      · exact moves_stays handle rfl rfl
      · exact moves_stays handle rfl rfl
      · split
        · exact moves_stays handle rfl rfl
        next hidle =>
          split
          · exact moves_stays handle rfl rfl
          · split
            · exact moves_stays handle rfl rfl
            · refine ⟨_, rfl, .signing _ ?_⟩
              rwa [Option.not_isSome_iff_eq_none] at hidle

/-- Clearing the signature of a session that is open. -/
theorem operations_clearSign {s : State} {handle : Nat} {session : Session}
    (h : s.moduleState.sessions handle = some session) :
    (clearSign s handle).operations =
      Function.update s.operations handle { s.operations handle with sign := none } := by
  unfold clearSign
  rw [h]
  rfl

theorem sign_moves (s : State) (handle : Nat) (input : List UInt8) (buffer : Buffer)
    (cache : Except CkRv PinCache.PinSafetyCache) :
    Moves s handle (cSign s handle input buffer cache) := by
  unfold cSign
  split
  · exact moves_stays handle rfl rfl
  · split <;> exact moves_stays handle rfl rfl
  next capacity =>
    split
    · exact moves_stays handle rfl rfl
    · exact moves_stays handle rfl rfl
    next session mechanism hsession hsign =>
      split
      · exact moves_stays handle rfl rfl
      · split
        · exact ⟨_, operations_clearSign hsession, .quiet _ _ rfl (.inl rfl) (.inr rfl)⟩
        · dsimp only
          split
          · exact ⟨_, operations_clearSign hsession, .quiet _ _ rfl (.inl rfl) (.inr rfl)⟩
          · exact ⟨_, operations_clearSign hsession, .sent _ hsign⟩
          · exact ⟨_, operations_clearSign hsession, .sent _ hsign⟩

theorem verifyInit_moves (s : State) (handle : Nat) (mechanism : Option Nat) (key : Nat)
    (built : Except CkRv TokenObjects) :
    Moves s handle (cVerifyInit s handle mechanism key built) := by
  unfold cVerifyInit
  split
  · exact moves_stays handle rfl rfl
  · split
    · exact moves_stays handle rfl rfl
    · split
      · exact moves_stays handle rfl rfl
      · exact moves_stays handle rfl rfl
      · split
        · exact moves_stays handle rfl rfl
        · split
          · exact moves_stays handle rfl rfl
          · split
            · exact moves_stays handle rfl rfl
            · exact ⟨_, rfl, .quiet _ _ rfl (.inl rfl) (.inl rfl)⟩

theorem verify_moves (s : State) (handle : Nat) (input signature : List UInt8)
    (built : Except CkRv TokenObjects) :
    Moves s handle (cVerify s handle input signature built) := by
  unfold cVerify
  split
  · exact moves_stays handle rfl rfl
  · exact moves_stays handle rfl rfl
  · split
    · exact moves_stays handle rfl rfl
    · refine ⟨_, rfl, .quiet _ _ ?_ (.inl rfl) (.inl rfl)⟩
      dsimp only
      split <;> rfl

theorem isQuiet_signReturn (s : State) (request : CardRequest)
    (outcome : Except CkRv (List UInt8)) : (cSignReturn s request outcome).isQuiet = true := by
  unfold cSignReturn
  split
  · rfl
  · rfl
  · split <;> rfl

/-- Opening takes the next handle. -/
theorem cOpenSession_handle {m m' : ModuleState TokenObjects} {slotId flags handle : Nat}
    (h : cOpenSession maxId m slotId flags = (some handle, m')) :
    handle = m.nextSessionHandle := by
  unfold cOpenSession at h
  split at h
  · cases h
  · split at h
    · cases h
    · split at h
      · cases h
        rfl
      · cases h

theorem tableCall_moves (s : State) (op : Op TokenObjects) :
    Moves s s.moduleState.nextSessionHandle (.done, tableCall maxId s op) := by
  unfold tableCall
  split
  · split
    · exact moves_stays _ rfl rfl
    next handle m hopen =>
      rw [cOpenSession_handle hopen]
      exact ⟨_, rfl, .quiet _ _ rfl (.inr rfl) (.inr rfl)⟩
  · exact moves_stays _ rfl rfl

/-- **A call advances the operations of the session it is about**, and no others. -/
theorem call_advances (s : State) (c : Call) : Moves s (c.session s) (call maxId s c) := by
  cases c with
  | table op => exact tableCall_moves s op
  | findObjectsInit handle template built => exact findObjectsInit_moves s handle template built
  | findObjects handle maxCount => exact findObjects_moves s handle maxCount
  | findObjectsFinal handle => exact findObjectsFinal_moves s handle
  | signInit handle mechanism key built => exact signInit_moves s handle mechanism key built
  | sign handle input buffer cache => exact sign_moves s handle input buffer cache
  | signReturn position outcome =>
    show Moves s 0 (call maxId s (.signReturn position outcome))
    dsimp only [call]
    split
    · exact moves_stays 0 rfl rfl
    · exact moves_stays 0 (isQuiet_signReturn s _ outcome) rfl
  | verifyInit handle mechanism key built => exact verifyInit_moves s handle mechanism key built
  | verify handle input signature built => exact verify_moves s handle input signature built

/-! ## §4. What a call does to the sessions -/

/-- What becomes of the sessions: some may be closed, or one is opened under the next handle. -/
def SessionsMove (maxId : Nat) (m m' : ModuleState TokenObjects) : Prop :=
  (m'.nextSessionHandle = m.nextSessionHandle ∧
    ∀ handle, m'.sessions handle = m.sessions handle ∨ m'.sessions handle = none) ∨
  (m'.nextSessionHandle = saturatingSucc maxId m.nextSessionHandle ∧
    ∀ handle, handle ≠ m.nextSessionHandle → m'.sessions handle = m.sessions handle)

theorem sessionsMove_stay {m m' : ModuleState TokenObjects}
    (hnext : m'.nextSessionHandle = m.nextSessionHandle) (h : m'.sessions = m.sessions) :
    SessionsMove maxId m m' := .inl ⟨hnext, fun handle => .inl (congrFun h handle)⟩

theorem nextHandle_refreshReader (m : ModuleState TokenObjects) (r : Reading TokenObjects) :
    (refreshReader maxId m r).nextSessionHandle = m.nextSessionHandle := by
  unfold refreshReader
  dsimp only
  repeat' split
  all_goals rfl

theorem nextHandle_refreshPair (m : ModuleState TokenObjects) (pair : RemotePair TokenObjects) :
    (refreshPair maxId m pair).nextSessionHandle = m.nextSessionHandle := by
  unfold refreshPair
  dsimp only
  repeat' split
  all_goals rfl

/-- A loop whose turns give out no handle gives out none. -/
theorem nextHandle_foldl {α : Type} {turn : ModuleState TokenObjects → α → ModuleState TokenObjects}
    (hturn : ∀ m a, (turn m a).nextSessionHandle = m.nextSessionHandle) (items : List α)
    (m : ModuleState TokenObjects) :
    (items.foldl turn m).nextSessionHandle = m.nextSessionHandle := by
  induction items generalizing m with
  | nil => rfl
  | cons a items ih => rw [List.foldl_cons, ih, hturn]

/-- The two folds of the refresh over the pairings. -/
theorem sessionsMove_refreshRemote (m : ModuleState TokenObjects)
    (pairs : List (RemotePair TokenObjects)) :
    SessionsMove maxId m (refreshRemoteSlots maxId m (some pairs)) := by
  refine sessionsMove_stay ?_ ?_
  · show (pairs.foldl (refreshPair maxId) _).nextSessionHandle = _
    rw [nextHandle_foldl nextHandle_refreshPair]
    exact @nextHandle_foldl _ ModuleState.withdraw (fun _ _ => rfl) _ (m.markWithdrawn _)
  · show (pairs.foldl (refreshPair maxId) _).sessions = _
    rw [sessions_refreshPairs]
    exact sessions_withdraw _ (m.markWithdrawn _)

/-- A session is closed, or the handle was unknown. -/
theorem sessionsMove_closeSession (m : ModuleState TokenObjects) (closed : Nat) :
    SessionsMove maxId m (closeSession m closed).2 := by
  unfold closeSession
  split
  · exact sessionsMove_stay rfl rfl
  · have hclosed : ∀ handle, Function.update m.sessions closed none handle = m.sessions handle ∨
        Function.update m.sessions closed none handle = none := by
      intro handle
      by_cases hself : handle = closed
      · right
        rw [hself, Function.update_self]
      · left
        exact Function.update_of_ne hself _ _
    dsimp only [forgetLoginIfNoSessions]
    split
    · exact .inl ⟨rfl, hclosed⟩
    · exact .inl ⟨rfl, hclosed⟩

/-- A call of the slot table. -/
theorem sessionsMove_step (m : ModuleState TokenObjects) (op : Op TokenObjects) :
    SessionsMove maxId m (Slots.step maxId m op) := by
  cases op with
  | refreshLocal readers =>
    cases readers with
    | none => exact sessionsMove_stay rfl rfl
    | some readers =>
      exact sessionsMove_stay (nextHandle_foldl nextHandle_refreshReader readers m)
        (sessions_refreshReaders maxId readers m)
  | refreshRemote pairs =>
    cases pairs with
    | none => exact sessionsMove_stay rfl rfl
    | some pairs => exact sessionsMove_refreshRemote m pairs
  | openSession slotId flags =>
    dsimp only [Slots.step, cOpenSession]
    split
    · exact sessionsMove_stay rfl rfl
    · split
      · exact sessionsMove_stay rfl rfl
      · split
        · refine .inr ⟨rfl, ?_⟩
          intro handle hne
          exact Function.update_of_ne hne _ _
        · exact sessionsMove_stay rfl rfl
  | closeSession closed => exact sessionsMove_closeSession m closed
  | closeAllSessions slotId =>
    dsimp only [Slots.step, cCloseAllSessions]
    split
    · exact sessionsMove_stay rfl rfl
    · refine .inl ⟨rfl, ?_⟩
      intro handle
      show (m.sessions handle).filter _ = _ ∨ (m.sessions handle).filter _ = none
      cases m.sessions handle with
      | none => exact .inl rfl
      | some session =>
        rw [Option.filter_some]
        split
        · exact .inl rfl
        · exact .inr rfl
  | logout slotId => exact sessionsMove_stay rfl rfl
  | invalidate slotId => exact sessionsMove_stay rfl rfl

theorem ensureToken_keeps (m : ModuleState TokenObjects) (slotId : Nat)
    (built : Except CkRv TokenObjects) :
    (ensureToken m slotId built).2.sessions = m.sessions ∧
      (ensureToken m slotId built).2.nextSessionHandle = m.nextSessionHandle := by
  unfold ensureToken
  split
  · exact ⟨rfl, rfl⟩
  · split <;> exact ⟨rfl, rfl⟩

/-- Calls other than those of the slot table leave the sessions as they are. -/
def KeepsSessions (s s' : State) : Prop :=
  s'.moduleState.sessions = s.moduleState.sessions ∧
    s'.moduleState.nextSessionHandle = s.moduleState.nextSessionHandle

theorem keepsSessions_ensureToken (s : State) {slotId : Nat} {built : Except CkRv TokenObjects}
    {result : Except CkRv TokenObjects} {m : ModuleState TokenObjects}
    (h : ensureToken s.moduleState slotId built = (result, m)) :
    KeepsSessions s { s with moduleState := m } := by
  have hkeeps := ensureToken_keeps s.moduleState slotId built
  rwa [h] at hkeeps

theorem keepsSessions_clearSign {s s' : State} (h : KeepsSessions s s') (handle : Nat) :
    KeepsSessions s (clearSign s' handle) := by
  unfold clearSign
  split
  · exact h
  · exact h

theorem findObjectsInit_keepsSessions (s : State) (handle : Nat)
    (template : Option (List (Nat × List UInt8))) (built : Except CkRv TokenObjects) :
    KeepsSessions s (cFindObjectsInit maxId s handle template built).2 := by
  unfold cFindObjectsInit
  split
  · exact ⟨rfl, rfl⟩
  · exact ⟨rfl, rfl⟩
  · split
    next hensure => exact keepsSessions_ensureToken s hensure
    next hensure => exact keepsSessions_ensureToken s hensure

theorem signInit_keepsSessions (s : State) (handle : Nat) (mechanism : Option Nat) (key : Nat)
    (built : Except CkRv TokenObjects) :
    KeepsSessions s (cSignInit s handle mechanism key built).2 := by
  unfold cSignInit
  split
  · exact ⟨rfl, rfl⟩
  · split
    · exact ⟨rfl, rfl⟩
    · split
      · exact ⟨rfl, rfl⟩
      · exact ⟨rfl, rfl⟩
      · split
        · exact ⟨rfl, rfl⟩
        · split
          next hensure => exact keepsSessions_ensureToken s hensure
          next hensure =>
            split
            · exact keepsSessions_ensureToken s hensure
            · exact keepsSessions_ensureToken s hensure

theorem sign_keepsSessions (s : State) (handle : Nat) (input : List UInt8) (buffer : Buffer)
    (cache : Except CkRv PinCache.PinSafetyCache) :
    KeepsSessions s (cSign s handle input buffer cache).2 := by
  unfold cSign
  split
  · exact ⟨rfl, rfl⟩
  · split <;> exact ⟨rfl, rfl⟩
  · split
    · exact ⟨rfl, rfl⟩
    · exact ⟨rfl, rfl⟩
    · split
      · exact ⟨rfl, rfl⟩
      · split
        · exact keepsSessions_clearSign ⟨rfl, rfl⟩ handle
        · dsimp only
          split
          · exact keepsSessions_clearSign ⟨rfl, rfl⟩ handle
          · exact keepsSessions_clearSign ⟨rfl, rfl⟩ handle
          · exact keepsSessions_clearSign ⟨rfl, rfl⟩ handle

theorem verifyInit_keepsSessions (s : State) (handle : Nat) (mechanism : Option Nat) (key : Nat)
    (built : Except CkRv TokenObjects) :
    KeepsSessions s (cVerifyInit s handle mechanism key built).2 := by
  unfold cVerifyInit
  split
  · exact ⟨rfl, rfl⟩
  · split
    · exact ⟨rfl, rfl⟩
    · split
      · exact ⟨rfl, rfl⟩
      · exact ⟨rfl, rfl⟩
      · split
        · exact ⟨rfl, rfl⟩
        · split
          next hensure => exact keepsSessions_ensureToken s hensure
          next hensure =>
            split
            · exact keepsSessions_ensureToken s hensure
            · exact keepsSessions_ensureToken s hensure

theorem verify_keepsSessions (s : State) (handle : Nat) (input signature : List UInt8)
    (built : Except CkRv TokenObjects) :
    KeepsSessions s (cVerify s handle input signature built).2 := by
  unfold cVerify
  split
  · exact ⟨rfl, rfl⟩
  · exact ⟨rfl, rfl⟩
  · split
    next hensure => exact keepsSessions_ensureToken s hensure
    next hensure => exact keepsSessions_ensureToken s hensure

theorem call_keepsSessions (s : State) {c : Call} (hc : ∀ op, c ≠ .table op) :
    KeepsSessions s (call maxId s c).2 := by
  cases c with
  | table op => exact absurd rfl (hc op)
  | findObjectsInit handle template built =>
    exact findObjectsInit_keepsSessions s handle template built
  | findObjects handle maxCount =>
    dsimp only [call, cFindObjects]
    split
    · exact ⟨rfl, rfl⟩
    · split <;> exact ⟨rfl, rfl⟩
  | findObjectsFinal handle =>
    dsimp only [call, cFindObjectsFinal]
    split <;> exact ⟨rfl, rfl⟩
  | signInit handle mechanism key built =>
    exact signInit_keepsSessions s handle mechanism key built
  | sign handle input buffer cache => exact sign_keepsSessions s handle input buffer cache
  | signReturn position outcome =>
    dsimp only [call]
    split <;> exact ⟨rfl, rfl⟩
  | verifyInit handle mechanism key built =>
    exact verifyInit_keepsSessions s handle mechanism key built
  | verify handle input signature built =>
    exact verify_keepsSessions s handle input signature built

/-- The slot table's calls are its steps. -/
theorem moduleState_tableCall (s : State) (op : Op TokenObjects) :
    (tableCall maxId s op).moduleState = Slots.step maxId s.moduleState op := by
  unfold tableCall
  split
  next slotId flags =>
    show _ = (cOpenSession maxId s.moduleState slotId flags).2
    split
    next m hopen => rw [hopen]
    next handle m hopen => rw [hopen]; rfl
  · rfl

theorem call_sessionsMove (s : State) (c : Call) :
    SessionsMove maxId s.moduleState (call maxId s c).2.moduleState := by
  by_cases htable : ∃ op, c = .table op
  · obtain ⟨op, rfl⟩ := htable
    show SessionsMove maxId s.moduleState (tableCall maxId s op).moduleState
    rw [moduleState_tableCall]
    exact sessionsMove_step s.moduleState op
  · obtain ⟨hsessions, hnext⟩ := @call_keepsSessions maxId s c
      fun op heq => htable ⟨op, heq⟩
    exact sessionsMove_stay hnext hsessions

/-! ## §5. What the caller gets -/

/-- A batch shorter than was asked for leaves nothing of the search. -/
theorem findObjects_short {s : State} {handle maxCount : Nat} {batch : List Nat}
    (h : (cFindObjects s handle maxCount).1 = .handles batch) (hshort : batch.length < maxCount) :
    (s.operations handle).find = some batch := by
  unfold cFindObjects at h
  split at h
  · cases h
  · split at h
    · cases h
    next given o hbatch =>
      obtain ⟨remaining, hfind, heq⟩ := Option.map_eq_some_iff.mp hbatch
      cases heq
      have hgiven : remaining.take (min maxCount remaining.length) = batch := Reply.handles.inj h
      have hall : remaining.length ≤ min maxCount remaining.length := by
        rw [← hgiven, List.length_take] at hshort
        omega
      rw [List.take_of_length_le hall] at hgiven
      rw [hfind, hgiven]

/-- What a request to the card was made from. -/
theorem sign_sent {s : State} {handle : Nat} {input : List UInt8} {buffer : Buffer}
    {cache : Except CkRv PinCache.PinSafetyCache} {request : CardRequest}
    (h : (cSign s handle input buffer cache).1 = .sent request) :
    request.session = handle ∧ request.mechanism.signatureLen ≤ request.capacity ∧
      s.moduleState.sessions handle ≠ none := by
  unfold cSign at h
  split at h
  · cases h
  · split at h <;> cases h
  next capacity =>
    split at h
    · cases h
    · cases h
    next session mechanism hsession hsign =>
      split at h
      · cases h
      next hroom =>
        have hopen : s.moduleState.sessions handle ≠ none := by
          rw [hsession]
          exact Option.some_ne_none session
        split at h
        · cases h
        · dsimp only at h
          split at h
          · cases h
          · cases h
            exact ⟨rfl, Nat.le_of_not_lt hroom, hopen⟩
          · cases h
            exact ⟨rfl, Nat.le_of_not_lt hroom, hopen⟩

theorem cSignReturn_closed {s : State} {request : CardRequest} (bytes : List UInt8)
    (h : s.moduleState.sessions request.session = none) :
    cSignReturn s request (.ok bytes) = .refused .sessionClosed := by
  unfold cSignReturn
  simp only [h]

theorem cSignReturn_open {s : State} {request : CardRequest} {bytes : List UInt8}
    (h : s.moduleState.sessions request.session ≠ none) (hroom : bytes.length ≤ request.capacity) :
    cSignReturn s request (.ok bytes) = .signature bytes := by
  obtain ⟨session, hsession⟩ := Option.ne_none_iff_exists'.mp h
  unfold cSignReturn
  simp only [hsession, if_neg (Nat.not_lt.mpr hroom)]

end

end RefineId.SessionOperations
