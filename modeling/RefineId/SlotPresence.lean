/-
  RefineId.SlotPresence — what a refresh leaves of a card that is gone.
  ════════════════════════════════════════════════════════════════════════════

  `refresh_slots_with` goes over the readers the enumeration lists; the slots whose
  reader it does not list are not looked at.

  Main results:
    • `refreshReader_effect` : what one reading does to the state.
    • `refresh_present`      : the presence of a slot none of whose readings has a card.
    • `refresh_held`         : what is kept under the id of such slots.
    • `noGhost_iff`          : when no slot keeps a card the enumeration did not list.
-/
import RefineId.Slots

namespace RefineId.Slots

open PinCache (PinSafetyCache)

variable {Objects : Type}

/-! ## §1. Ghosts -/

/-- A slot of a PC/SC reader, not of a paired phone. -/
def SlotRecord.isLocal (slot : SlotRecord) : Bool := !slot.readerName.startsWith "rapp:"

/-- Whether a slot holds a positive PIN. -/
def ModuleState.pinHeld (s : ModuleState Objects) (slotId : Nat) : Bool :=
  (s.pinCaches slotId).any PinSafetyCache.hasPositivePin1

/-- `is_logged_in`. -/
def ModuleState.isLoggedIn (s : ModuleState Objects) (slotId : Nat) : Bool :=
  (s.slot slotId).any (fun slot => !slot.isLocal) || decide (slotId ∈ s.remoteLoggedIn) ||
    s.pinHeld slotId

/-- Token objects or a login are kept under an id. -/
def ModuleState.Held (s : ModuleState Objects) (slotId : Nat) : Prop :=
  (s.tokenCache slotId).isSome = true ∨ s.isLoggedIn slotId = true

/-- The enumeration lists the reader. -/
def Listed (readers : List (Reading Objects)) (name : String) : Prop :=
  ∃ r ∈ readers, r.name = name

/-- The enumeration lists the reader with a card, or as temporarily unavailable. -/
def Backed (readers : List (Reading Objects)) (name : String) : Prop :=
  ∃ r ∈ readers, r.name = name ∧ r.observation ≠ .absent

/-- No PC/SC slot has a card, token objects or a login that the enumeration does not
    back.  What is kept under an id is kept for every slot of that id. -/
structure NoGhost (readers : List (Reading Objects)) (s : ModuleState Objects) : Prop where
  present : ∀ slot ∈ s.slots, slot.isLocal = true → slot.cardPresent = true →
    Backed readers slot.readerName
  held : ∀ slot ∈ s.slots, slot.isLocal = true → s.Held slot.id →
    ∃ other ∈ s.slots, other.id = slot.id ∧
      (other.isLocal = true → Backed readers other.readerName)

/-! ## §2. The condition -/

/-- The ids a refresh gives to new readers. -/
def givenIds (maxId : Nat) (names : List String) (next : Nat) : List (Reading Objects) → List Nat
  | [] => []
  | r :: readers =>
    if r.admitted = true ∧ r.name ∉ names then
      next :: givenIds maxId (names ++ [r.name]) (saturatingSucc maxId next) readers
    else givenIds maxId names next readers

/-- The slot of a reader. -/
def ModuleState.slotOf (s : ModuleState Objects) (name : String) : Option SlotRecord :=
  (s.position name).bind fun pos => s.slots[pos]?

/-- All slots of an id are PC/SC slots without a card in the enumeration, and no new reader
    is given the id. -/
def Orphaned (maxId : Nat) (s : ModuleState Objects) (readers : List (Reading Objects))
    (slotId : Nat) : Prop :=
  (∀ slot ∈ s.slots, slot.id = slotId →
    slot.isLocal = true ∧ ¬ Backed readers slot.readerName) ∧
    slotId ∉ givenIds maxId s.names s.nextSlotId readers

/-- A reader that is listed has its card in a slot of the id. -/
def Leaves (s : ModuleState Objects) (readers : List (Reading Objects)) (slotId : Nat) : Prop :=
  ∃ r ∈ readers, ∃ slot, s.slotOf r.name = some slot ∧ slot.id = slotId ∧
    slot.cardPresent = true

/-- What the refresh does not repair is right before it: a card that the enumeration does
    not back is in a reader it lists, and so are token objects and PINs; nobody is logged
    in remotely on a PC/SC slot. -/
structure Accounted (maxId : Nat) (s : ModuleState Objects) (readers : List (Reading Objects)) :
    Prop where
  present : ∀ pos slot, s.slots[pos]? = some slot → slot.isLocal = true →
    ¬ Backed readers slot.readerName → slot.cardPresent = true →
      Listed readers slot.readerName ∧ s.position slot.readerName = some pos
  held : ∀ slot ∈ s.slots, slot.isLocal = true → Orphaned maxId s readers slot.id →
    slot.id ∉ s.remoteLoggedIn ∧
      ((s.tokenCache slot.id).isSome = true ∨ s.pinHeld slot.id = true →
        Leaves s readers slot.id)

/-! ## §3. One reading -/

/-- What a reading does to the state. -/
inductive Effect (maxId : Nat) (s : ModuleState Objects) (r : Reading Objects) :
    ModuleState Objects → Prop where
  | same (hstay : ∀ slot, r.observation = .absent → s.slotOf r.name = some slot →
      slot.cardPresent = false) : Effect maxId s r s
  | appear {pos : Nat} {slot : SlotRecord} (objects : Objects) (hobs : r.observation = .present)
      (hpos : s.position r.name = some pos) (hslot : s.slots[pos]? = some slot) :
      Effect maxId s r
        (((s.setPresent pos true).invalidateSlot slot.id).cacheToken slot.id objects)
  | leave {pos : Nat} {slot : SlotRecord} (hobs : r.observation = .absent)
      (hpos : s.position r.name = some pos) (hslot : s.slots[pos]? = some slot)
      (hpresent : slot.cardPresent = true) :
      Effect maxId s r ((s.setPresent pos false).invalidateSlot slot.id)
  | new (objects : Objects) (hadmitted : r.admitted = true) (hpos : s.position r.name = none) :
      Effect maxId s r ((s.pushSlot maxId r.name true r.identity).cacheToken s.nextSlotId objects)

theorem slotOf_of_position {s : ModuleState Objects} {name : String} {pos : Nat}
    (h : s.position name = some pos) : s.slotOf name = s.slots[pos]? := by
  simp only [ModuleState.slotOf, h, Option.bind_some]

theorem refreshReader_effect (maxId : Nat) (s : ModuleState Objects) (r : Reading Objects) :
    Effect maxId s r (refreshReader maxId s r) := by
  unfold refreshReader
  split
  next hbusy => exact .same fun slot hobs => absurd (hobs.symm.trans hbusy) (by decide)
  next hbusy =>
    dsimp only
    split
    next pos hpos =>
      split
      next hnone =>
        refine .same fun slot _ hslot => ?_
        rw [slotOf_of_position hpos, hnone] at hslot
        exact absurd hslot (by simp)
      next slot hslot =>
        split
        next happear =>
          split
          · exact .same fun _ hobs => absurd (hobs.symm.trans happear.1) (by decide)
          next objects _ => exact .appear objects happear.1 hpos hslot
        next happear =>
          split
          next hleave =>
            have hobs : r.observation = .absent := by
              cases hobs : r.observation with
              | absent => rfl
              | present => exact absurd hobs hleave.2
              | temporarilyUnavailable => exact absurd hobs hbusy
            exact .leave hobs hpos hslot hleave.1
          next hleave =>
            refine .same fun slot' hobs hslot' => ?_
            rw [slotOf_of_position hpos, hslot] at hslot'
            obtain rfl := Option.some.inj hslot'
            cases hpresent : slot.cardPresent with
            | false => rfl
            | true => exact absurd ⟨hpresent, by simp [hobs]⟩ hleave
    next hpos =>
      have hnone : ∀ slot, s.slotOf r.name = some slot → slot.cardPresent = false := by
        intro slot hslot
        simp only [ModuleState.slotOf, hpos, Option.bind_none] at hslot
        exact absurd hslot (by simp)
      split
      next hpresent =>
        split
        · exact .same fun slot _ => hnone slot
        next objects hobjects =>
          exact .new objects (by simp [Reading.admitted, hpresent, hobjects]) hpos
      · exact .same fun slot _ => hnone slot

theorem Backed.cons {r : Reading Objects} {readers : List (Reading Objects)} {name : String}
    (h : Backed readers name) : Backed (r :: readers) name := by
  obtain ⟨r', hr', hname⟩ := h
  exact ⟨r', List.mem_cons_of_mem r hr', hname⟩

/-- A reading of a reader without a card says so. -/
theorem absent_of_not_backed {r : Reading Objects} {readers : List (Reading Objects)}
    {name : String} (h : ¬ Backed (r :: readers) name) (hname : r.name = name) :
    r.observation = .absent := by
  by_contra hobs
  exact h ⟨r, List.mem_cons_self, hname, hobs⟩

theorem slot_of_position {s : ModuleState Objects} {name : String} {pos : Nat}
    (h : s.position name = some pos) :
    ∃ slot, s.slots[pos]? = some slot ∧ slot.readerName = name := by
  obtain ⟨hlt, hname, -⟩ := List.findIdx?_eq_some_iff_getElem.mp h
  exact ⟨s.slots[pos], List.getElem?_eq_getElem hlt, by simpa using hname⟩

theorem position_eq (s : ModuleState Objects) (name : String) :
    s.position name = s.names.findIdx? (· == name) := by
  simp only [ModuleState.position, ModuleState.names, List.findIdx?_map]
  rfl

/-- A slot stays where it is while the table grows. -/
theorem position_of_grows {s s' : ModuleState Objects} (h : s.keys <+: s'.keys) {name : String}
    (hmem : name ∈ s.names) : s'.position name = s.position name := by
  obtain ⟨tail, htail⟩ := h
  have hnames : s'.names = s.names ++ tail.map Prod.snd := by
    rw [names_eq_keys, names_eq_keys, ← htail, List.map_append]
  cases hpos : s.position name with
  | none => exact absurd hmem (position_eq_none hpos)
  | some pos =>
    rw [position_eq] at hpos
    rw [position_eq, hnames, List.findIdx?_append, hpos]
    rfl

theorem mem_names_of_slot {s : ModuleState Objects} {pos : Nat} {slot : SlotRecord}
    (h : s.slots[pos]? = some slot) : slot.readerName ∈ s.names :=
  List.mem_map_of_mem (List.mem_of_getElem? h)

/-- The ids and names a refresh appends: the ids given, to readers with a card. -/
theorem refresh_keys (maxId : Nat) (readers : List (Reading Objects))
    (s : ModuleState Objects) :
    ∃ tail, (readers.foldl (refreshReader maxId) s).keys = s.keys ++ tail ∧
      tail.map Prod.fst = givenIds maxId s.names s.nextSlotId readers ∧
      ∀ key ∈ tail, Backed readers key.2 := by
  induction readers generalizing s with
  | nil => exact ⟨[], by simp, rfl, by simp⟩
  | cons r readers ih =>
    obtain ⟨tail, hkeys, hids, hbacked⟩ := ih (refreshReader maxId s r)
    have htable := refreshReader_table maxId s r
    rw [List.foldl_cons, hkeys]
    -- a reading that is not admitted, or whose reader has a slot, appends nothing
    have hold : Keeps s (refreshReader maxId s r) →
        ¬ (r.admitted = true ∧ r.name ∉ s.names) →
        ∃ tail', (refreshReader maxId s r).keys ++ tail = s.keys ++ tail' ∧
          tail'.map Prod.fst = givenIds maxId s.names s.nextSlotId (r :: readers) ∧
          ∀ key ∈ tail', Backed (r :: readers) key.2 := by
      intro hkeeps hno
      refine ⟨tail, by rw [hkeeps.keys], ?_, fun key hkey => (hbacked key hkey).cons⟩
      rw [givenIds, if_neg hno, hids, hkeeps.names, hkeeps.next]
    by_cases hadmitted : r.admitted = true
    · rw [if_pos hadmitted] at htable
      obtain ⟨hkeeps, hmem⟩ | ⟨hnew, happended, hnext⟩ := htable
      · exact hold hkeeps fun h => h.2 hmem
      · have hnames : (refreshReader maxId s r).names = s.names ++ [r.name] := by
          rw [names_eq_keys, happended, List.map_append, ← names_eq_keys]
          rfl
        refine ⟨(s.nextSlotId, r.name) :: tail, by rw [happended]; simp, ?_, ?_⟩
        · rw [givenIds, if_pos ⟨hadmitted, hnew⟩, List.map_cons, hids, hnames, hnext]
        · intro key hkey
          obtain hkey | hkey := List.mem_cons.mp hkey
          · subst hkey
            have hobs : r.observation = .present := by
              simp only [Reading.admitted, Bool.and_eq_true, beq_iff_eq] at hadmitted
              exact hadmitted.1
            exact ⟨r, List.mem_cons_self, rfl, by simp [hobs]⟩
          · exact (hbacked key hkey).cons
    · rw [if_neg hadmitted] at htable
      exact hold htable fun h => hadmitted h.1

/-! ## §4. Presence -/

theorem getElem?_setPresent_ne {s : ModuleState Objects} {pos pos' : Nat} (h : pos' ≠ pos)
    (present : Bool) : (s.setPresent pos' present).slots[pos]? = s.slots[pos]? := by
  simp only [ModuleState.setPresent, List.getElem?_modify, h, if_false]
  simp

theorem getElem?_setPresent_self {s : ModuleState Objects} {pos : Nat} {slot : SlotRecord}
    (h : s.slots[pos]? = some slot) (present : Bool) :
    (s.setPresent pos present).slots[pos]? = some { slot with cardPresent := present } := by
  simp [ModuleState.setPresent, h]

/-- A reading takes the card from the slot of its reader, if it is not a card. -/
theorem refreshReader_slot (maxId : Nat) {s : ModuleState Objects} {r : Reading Objects}
    {pos : Nat} {slot : SlotRecord} (hslot : s.slots[pos]? = some slot)
    (hr : r.name = slot.readerName → r.observation = .absent) :
    ∃ present, (refreshReader maxId s r).slots[pos]? =
        some { slot with cardPresent := present } ∧
      (present = true ↔ slot.cardPresent = true ∧
        ¬ (r.name = slot.readerName ∧ s.position slot.readerName = some pos)) := by
  have heffect := refreshReader_effect maxId s r
  generalize refreshReader maxId s r = s' at heffect
  cases heffect with
  | same hstay =>
    refine ⟨slot.cardPresent, hslot, fun h => ⟨h, fun hown => ?_⟩, fun h => h.1⟩
    have hpos : s.position r.name = some pos := hown.1 ▸ hown.2
    have hgone := hstay slot (hr hown.1) (by rw [slotOf_of_position hpos, hslot])
    exact absurd h (by simp [hgone])
  | @appear pos' slot' objects hobs hpos' hslot' =>
    -- a reading with a card is not of this slot's reader
    have hname : r.name ≠ slot.readerName := fun hname =>
      absurd (hobs.symm.trans (hr hname)) (by decide)
    have hne : pos' ≠ pos := by
      intro heq
      subst heq
      obtain ⟨slot'', hslot'', hname''⟩ := slot_of_position hpos'
      obtain rfl := Option.some.inj (hslot.symm.trans hslot'')
      exact hname hname''.symm
    exact ⟨slot.cardPresent, (getElem?_setPresent_ne hne true).trans hslot,
      fun h => ⟨h, fun hown => hname hown.1⟩, fun h => h.1⟩
  | @leave pos' slot' hobs hpos' hslot' hpresent =>
    by_cases heq : pos' = pos
    · subst heq
      obtain ⟨slot'', hslot'', hname''⟩ := slot_of_position hpos'
      obtain rfl := Option.some.inj (hslot.symm.trans hslot'')
      refine ⟨false, getElem?_setPresent_self hslot false, fun h => absurd h (by simp),
        fun h => absurd ⟨hname''.symm, ?_⟩ h.2⟩
      rw [hname'']
      exact hpos'
    · refine ⟨slot.cardPresent, (getElem?_setPresent_ne heq false).trans hslot,
        fun h => ⟨h, fun hown => heq ?_⟩, fun h => h.1⟩
      exact Option.some.inj (hpos'.symm.trans (hown.1 ▸ hown.2))
  | new objects hadmitted hpos' =>
    have hlt := (List.getElem?_eq_some_iff.mp hslot).1
    refine ⟨slot.cardPresent, (List.getElem?_append_left hlt).trans hslot,
      fun h => ⟨h, fun hown => ?_⟩, fun h => h.1⟩
    exact absurd (hown.1.symm ▸ mem_names_of_slot hslot) (position_eq_none hpos')

/-- **Presence.** A slot none of whose readings has a card loses its card to the first
    reading of its reader, and keeps it where there is none. -/
theorem refresh_present (maxId : Nat) {readers : List (Reading Objects)}
    {s : ModuleState Objects} {pos : Nat} {slot : SlotRecord}
    (hslot : s.slots[pos]? = some slot) (hunbacked : ¬ Backed readers slot.readerName) :
    ∃ present, (readers.foldl (refreshReader maxId) s).slots[pos]? =
        some { slot with cardPresent := present } ∧
      (present = true ↔ slot.cardPresent = true ∧
        ¬ (Listed readers slot.readerName ∧ s.position slot.readerName = some pos)) := by
  induction readers generalizing s slot with
  | nil => exact ⟨slot.cardPresent, hslot, by simp [Listed]⟩
  | cons r readers ih =>
    obtain ⟨present, hone, hiff⟩ := refreshReader_slot maxId hslot
      (absent_of_not_backed hunbacked)
    have hgrows : s.keys <+: (refreshReader maxId s r).keys :=
      (refreshReaders_table maxId [r] s).grows
    have hposition := position_of_grows hgrows (mem_names_of_slot hslot)
    obtain ⟨present', hrest, hiff'⟩ := ih hone fun h => hunbacked h.cons
    refine ⟨present', hrest, ?_⟩
    simp only [hposition] at hiff'
    rw [hiff', hiff]
    constructor
    · intro h
      refine ⟨h.1.1, fun hlisted => ?_⟩
      obtain ⟨⟨r', hr', hname⟩, hpos⟩ := hlisted
      obtain hr' | hr' := List.mem_cons.mp hr'
      · exact h.1.2 ⟨hr' ▸ hname, hpos⟩
      · exact h.2 ⟨⟨r', hr', hname⟩, hpos⟩
    · intro h
      exact ⟨⟨h.1, fun hown => h.2 ⟨⟨r, List.mem_cons_self, hown.1⟩, hown.2⟩⟩,
        fun hlater => h.2 ⟨by
          obtain ⟨⟨r', hr', hname⟩, -⟩ := hlater
          exact ⟨r', List.mem_cons_of_mem r hr', hname⟩, hlater.2⟩⟩

/-! ## §5. What is kept under an id -/

theorem tokenCache_invalidateSlot (s : ModuleState Objects) (slotId i : Nat) :
    (s.invalidateSlot slotId).tokenCache i = if i = slotId then none else s.tokenCache i := by
  simp only [ModuleState.invalidateSlot, ModuleState.clearPositive, Function.update_apply]

theorem pinHeld_invalidateSlot (s : ModuleState Objects) (slotId i : Nat) :
    (s.invalidateSlot slotId).pinHeld i = if i = slotId then false else s.pinHeld i := by
  simp only [ModuleState.invalidateSlot, ModuleState.clearPositive, ModuleState.pinHeld]
  split
  · cases s.pinCaches i <;> rfl
  · rfl

theorem tokenCache_cacheToken_ne {s : ModuleState Objects} {slotId i : Nat} (h : i ≠ slotId)
    (objects : Objects) : (s.cacheToken slotId objects).tokenCache i = s.tokenCache i :=
  Function.update_of_ne h _ _

theorem slotOf_spec {s : ModuleState Objects} {name : String} {slot : SlotRecord}
    (h : s.slotOf name = some slot) : slot ∈ s.slots ∧ slot.readerName = name := by
  cases hpos : s.position name with
  | none => exact absurd h (by simp [ModuleState.slotOf, hpos])
  | some pos =>
    obtain ⟨slot', hslot', hname⟩ := slot_of_position hpos
    rw [slotOf_of_position hpos, hslot'] at h
    obtain rfl := Option.some.inj h
    exact ⟨List.mem_of_getElem? hslot', hname⟩

/-- Setting the presence of one reader's slot leaves the slots of the others. -/
theorem slotOf_setPresent_ne {s : ModuleState Objects} {name name' : String} {pos : Nat}
    (hpos : s.position name = some pos) (hne : name' ≠ name) (present : Bool) :
    (s.setPresent pos present).slotOf name' = s.slotOf name' := by
  have hnames := (keeps_setPresent s pos present).names
  have hsame : (s.setPresent pos present).position name' = s.position name' := by
    rw [position_eq, position_eq, hnames]
  simp only [ModuleState.slotOf, hsame]
  cases hpos' : s.position name' with
  | none => rfl
  | some pos' =>
    have hapart : pos ≠ pos' := by
      intro heq
      subst heq
      obtain ⟨slot, hslot, hname⟩ := slot_of_position hpos
      obtain ⟨slot', hslot', hname'⟩ := slot_of_position hpos'
      obtain rfl := Option.some.inj (hslot.symm.trans hslot')
      exact hne (hname'.symm.trans hname)
    exact getElem?_setPresent_ne hapart present

theorem slotOf_setPresent_self {s : ModuleState Objects} {name : String} {pos : Nat}
    {slot : SlotRecord} (hpos : s.position name = some pos) (hslot : s.slots[pos]? = some slot)
    (present : Bool) :
    (s.setPresent pos present).slotOf name = some { slot with cardPresent := present } := by
  have hnames := (keeps_setPresent s pos present).names
  have hsame : (s.setPresent pos present).position name = some pos := by
    rw [position_eq, hnames, ← position_eq, hpos]
  rw [slotOf_of_position hsame, getElem?_setPresent_self hslot]

theorem slotOf_pushSlot_ne (maxId : Nat) {s : ModuleState Objects} {name name' : String}
    (hne : name' ≠ name) (present : Bool) (identity : ReaderIdentity) :
    (s.pushSlot maxId name present identity).slotOf name' = s.slotOf name' := by
  simp only [ModuleState.slotOf, ModuleState.position, ModuleState.pushSlot,
    List.findIdx?_append]
  cases hpos : s.slots.findIdx? (fun slot => slot.readerName == name') with
  | none => simp [Ne.symm hne]
  | some pos =>
    have hlt := (List.findIdx?_eq_some_iff_getElem.mp hpos).1
    simp [List.getElem?_append_left hlt]

theorem slotOf_pushSlot_self (maxId : Nat) {s : ModuleState Objects} {name : String}
    (hpos : s.position name = none) (present : Bool) (identity : ReaderIdentity) :
    (s.pushSlot maxId name present identity).slotOf name =
      some ⟨s.nextSlotId, name, present, identity⟩ := by
  unfold ModuleState.position at hpos
  simp [ModuleState.slotOf, ModuleState.position, ModuleState.pushSlot, List.findIdx?_append,
    hpos]

/-- The reading's own slot has the id, and a card. -/
def LeavesNow (s : ModuleState Objects) (r : Reading Objects) (slotId : Nat) : Prop :=
  ∃ slot, s.slotOf r.name = some slot ∧ slot.id = slotId ∧ slot.cardPresent = true

theorem leaves_cons {s : ModuleState Objects} {r : Reading Objects}
    {readers : List (Reading Objects)} {slotId : Nat} :
    Leaves s (r :: readers) slotId ↔ LeavesNow s r slotId ∨ Leaves s readers slotId := by
  simp [Leaves, LeavesNow]

/-- The slots of an orphaned id stay so through a reading. -/
theorem Orphaned.tail {maxId : Nat} {s : ModuleState Objects} {r : Reading Objects}
    {readers : List (Reading Objects)} {slotId : Nat}
    (h : Orphaned maxId s (r :: readers) slotId) :
    Orphaned maxId (refreshReader maxId s r) readers slotId := by
  obtain ⟨hslots, hgiven⟩ := h
  have hold : Keeps s (refreshReader maxId s r) → ¬ (r.admitted = true ∧ r.name ∉ s.names) →
      Orphaned maxId (refreshReader maxId s r) readers slotId := by
    intro hkeeps hno
    refine ⟨fun slot hslot hid => ?_, ?_⟩
    · have hkey : (slot.id, slot.readerName) ∈ s.keys :=
        hkeeps.keys ▸ List.mem_map.mpr ⟨slot, hslot, rfl⟩
      obtain ⟨old, hmem, hold⟩ := List.mem_map.mp hkey
      simp only [Prod.mk.injEq] at hold
      have hspec := hslots old hmem (hold.1.trans hid)
      exact ⟨by simpa [SlotRecord.isLocal, hold.2] using hspec.1,
        fun hbacked => hspec.2 (hold.2 ▸ hbacked.cons)⟩
    · rw [hkeeps.names, hkeeps.next]
      rwa [givenIds, if_neg hno] at hgiven
  have htable := refreshReader_table maxId s r
  by_cases hadmitted : r.admitted = true
  · rw [if_pos hadmitted] at htable
    obtain ⟨hkeeps, hmem⟩ | ⟨hnew, happended, hnext⟩ := htable
    · exact hold hkeeps fun h => h.2 hmem
    · rw [givenIds, if_pos ⟨hadmitted, hnew⟩] at hgiven
      refine ⟨fun slot hslot hid => ?_, fun hlater => hgiven ?_⟩
      · have hkey : (slot.id, slot.readerName) ∈ s.keys ++ [(s.nextSlotId, r.name)] :=
          happended ▸ List.mem_map.mpr ⟨slot, hslot, rfl⟩
        obtain hkey | hkey := List.mem_append.mp hkey
        · obtain ⟨old, hmem, hold⟩ := List.mem_map.mp hkey
          simp only [Prod.mk.injEq] at hold
          have hspec := hslots old hmem (hold.1.trans hid)
          exact ⟨by simpa [SlotRecord.isLocal, hold.2] using hspec.1,
            fun hbacked => hspec.2 (hold.2 ▸ hbacked.cons)⟩
        · simp only [List.mem_singleton, Prod.mk.injEq] at hkey
          exact absurd (List.mem_cons.mpr (.inl (hid.symm.trans hkey.1))) hgiven
      · have hnames : (refreshReader maxId s r).names = s.names ++ [r.name] := by
          rw [names_eq_keys, happended, List.map_append, ← names_eq_keys]
          rfl
        rw [hnames, hnext] at hlater
        exact List.mem_cons_of_mem _ hlater
  · rw [if_neg hadmitted] at htable
    exact hold htable fun h => hadmitted h.1

/-- The slot of a reading with a card does not have an orphaned id. -/
theorem Orphaned.id_ne {maxId : Nat} {s : ModuleState Objects} {r : Reading Objects}
    {readers : List (Reading Objects)} {i : Nat} (h : Orphaned maxId s (r :: readers) i)
    (hobs : r.observation ≠ .absent) {slot : SlotRecord} (hslot : s.slotOf r.name = some slot) :
    slot.id ≠ i := by
  intro hid
  obtain ⟨hmem, hname⟩ := slotOf_spec hslot
  exact (h.1 slot hmem hid).2 ⟨r, List.mem_cons_self, hname.symm, hobs⟩

/-- A reading that leaves the slots of other readers, and gives its own no card under the id,
    does not change what later readings take away. -/
theorem leaves_framed {s s' : ModuleState Objects} {r : Reading Objects}
    {readers : List (Reading Objects)} {i : Nat}
    (hother : ∀ name, name ≠ r.name → s'.slotOf name = s.slotOf name)
    (hown : ∀ slot, s'.slotOf r.name = some slot → slot.id = i → slot.cardPresent = false)
    (hnow : ¬ LeavesNow s r i) : Leaves s' readers i ↔ Leaves s readers i := by
  constructor
  · intro hleaves
    obtain ⟨r', hr', slot, hslot, hid, hpresent⟩ := hleaves
    by_cases hname : r'.name = r.name
    · rw [hown slot (hname ▸ hslot) hid] at hpresent
      exact absurd hpresent (by simp)
    · exact ⟨r', hr', slot, hother _ hname ▸ hslot, hid, hpresent⟩
  · intro hleaves
    obtain ⟨r', hr', slot, hslot, hid, hpresent⟩ := hleaves
    by_cases hname : r'.name = r.name
    · exact absurd ⟨slot, hname ▸ hslot, hid, hpresent⟩ hnow
    · exact ⟨r', hr', slot, (hother _ hname).trans hslot, hid, hpresent⟩

/-- What a step does under an id: it takes all away when the reading's own slot has the id and
    a card, and nothing otherwise. -/
structure TakesOnly (s s' : ModuleState Objects) (r : Reading Objects)
    (readers : List (Reading Objects)) (i : Nat) : Prop where
  takes : LeavesNow s r i → s'.tokenCache i = none ∧ s'.pinHeld i = false
  keeps : ¬ LeavesNow s r i → s'.tokenCache i = s.tokenCache i ∧ s'.pinHeld i = s.pinHeld i
  later : ¬ LeavesNow s r i → (Leaves s' readers i ↔ Leaves s readers i)

section
variable {maxId : Nat} {s : ModuleState Objects} {r : Reading Objects}
  {readers : List (Reading Objects)} {i : Nat}

/-- A slot that stays. -/
theorem takesOnly_same (h : Orphaned maxId s (r :: readers) i)
    (hstay : ∀ slot, r.observation = .absent → s.slotOf r.name = some slot →
      slot.cardPresent = false) : TakesOnly s s r readers i where
  takes := by
    rintro ⟨slot, hslot, hid, hpresent⟩
    have hobs : r.observation = .absent := by
      by_contra hobs
      exact h.id_ne hobs hslot hid
    rw [hstay slot hobs hslot] at hpresent
    exact absurd hpresent (by simp)
  keeps _ := ⟨rfl, rfl⟩
  later _ := Iff.rfl

/-- A card that appears: its slot does not have the id. -/
theorem takesOnly_appear (h : Orphaned maxId s (r :: readers) i) {pos : Nat} {slot : SlotRecord}
    (objects : Objects) (hobs : r.observation = .present) (hpos : s.position r.name = some pos)
    (hslot : s.slots[pos]? = some slot) :
    TakesOnly s (((s.setPresent pos true).invalidateSlot slot.id).cacheToken slot.id objects)
      r readers i := by
  have hown : s.slotOf r.name = some slot := (slotOf_of_position hpos).trans hslot
  have hid : i ≠ slot.id := (h.id_ne (by simp [hobs]) hown).symm
  refine ⟨?_, fun _ => ⟨?_, ?_⟩, fun hnow => leaves_framed ?_ ?_ hnow⟩
  · rintro ⟨slot', hslot', hid', -⟩
    obtain rfl := Option.some.inj (hown.symm.trans hslot')
    exact absurd hid'.symm hid
  · rw [tokenCache_cacheToken_ne hid, tokenCache_invalidateSlot, if_neg hid]
    rfl
  · exact (pinHeld_invalidateSlot _ _ _).trans (if_neg hid)
  · intro name hne
    exact slotOf_setPresent_ne hpos hne true
  · intro slot' hslot' hid'
    have hself := slotOf_setPresent_self hpos hslot true
    obtain rfl := Option.some.inj (hself.symm.trans hslot')
    exact absurd hid'.symm hid

/-- A card that left. -/
theorem takesOnly_leave {pos : Nat} {slot : SlotRecord} (hpos : s.position r.name = some pos)
    (hslot : s.slots[pos]? = some slot) (hpresent : slot.cardPresent = true) :
    TakesOnly s ((s.setPresent pos false).invalidateSlot slot.id) r readers i := by
  have hown : s.slotOf r.name = some slot := (slotOf_of_position hpos).trans hslot
  have hapart (hnow : ¬ LeavesNow s r i) : i ≠ slot.id :=
    fun hid => hnow ⟨slot, hown, hid.symm, hpresent⟩
  refine ⟨?_, fun hnow => ⟨?_, ?_⟩, fun hnow => leaves_framed ?_ ?_ hnow⟩
  · rintro ⟨slot', hslot', hid', -⟩
    obtain rfl := Option.some.inj (hown.symm.trans hslot')
    subst hid'
    rw [tokenCache_invalidateSlot, pinHeld_invalidateSlot]
    simp
  · exact (tokenCache_invalidateSlot _ _ _).trans (if_neg (hapart hnow))
  · exact (pinHeld_invalidateSlot _ _ _).trans (if_neg (hapart hnow))
  · intro name hne
    exact slotOf_setPresent_ne hpos hne false
  · intro slot' hslot' _
    have hself := slotOf_setPresent_self hpos hslot false
    obtain rfl := Option.some.inj (hself.symm.trans hslot')
    rfl

/-- A slot that is new: its id is not the orphaned one. -/
theorem takesOnly_new (h : Orphaned maxId s (r :: readers) i) (objects : Objects)
    (hadmitted : r.admitted = true) (hpos : s.position r.name = none) :
    TakesOnly s ((s.pushSlot maxId r.name true r.identity).cacheToken s.nextSlotId objects)
      r readers i := by
  have hid : i ≠ s.nextSlotId := by
    intro hid
    refine h.2 ?_
    rw [givenIds, if_pos ⟨hadmitted, position_eq_none hpos⟩, hid]
    exact List.mem_cons_self
  refine ⟨?_, fun _ => ⟨tokenCache_cacheToken_ne hid objects, rfl⟩,
    fun hnow => leaves_framed ?_ ?_ hnow⟩
  · rintro ⟨slot, hslot, -⟩
    simp only [ModuleState.slotOf, hpos, Option.bind_none] at hslot
    exact absurd hslot (by simp)
  · intro name hne
    exact slotOf_pushSlot_ne maxId hne true r.identity
  · intro slot hslot hid'
    have hself := slotOf_pushSlot_self maxId hpos true r.identity
    obtain rfl := Option.some.inj (hself.symm.trans hslot)
    exact absurd hid'.symm hid

/-- **A reading under an orphaned id.** -/
theorem refreshReader_orphan (h : Orphaned maxId s (r :: readers) i) :
    TakesOnly s (refreshReader maxId s r) r readers i := by
  have heffect := refreshReader_effect maxId s r
  generalize refreshReader maxId s r = s' at heffect
  cases heffect with
  | same hstay => exact takesOnly_same h hstay
  | appear objects hobs hpos hslot => exact takesOnly_appear h objects hobs hpos hslot
  | leave hobs hpos hslot hpresent => exact takesOnly_leave hpos hslot hpresent
  | new objects hadmitted hpos => exact takesOnly_new h objects hadmitted hpos

end

/-- **What is kept under an orphaned id** goes when a listed reader has its card in a slot
    of the id, and stays otherwise. -/
theorem refresh_held (maxId : Nat) {readers : List (Reading Objects)} {s : ModuleState Objects}
    {i : Nat} (h : Orphaned maxId s readers i) :
    (Leaves s readers i → (readers.foldl (refreshReader maxId) s).tokenCache i = none ∧
        (readers.foldl (refreshReader maxId) s).pinHeld i = false) ∧
      (¬ Leaves s readers i →
        (readers.foldl (refreshReader maxId) s).tokenCache i = s.tokenCache i ∧
          (readers.foldl (refreshReader maxId) s).pinHeld i = s.pinHeld i) := by
  induction readers generalizing s with
  | nil => exact ⟨fun hleaves => absurd hleaves (by simp [Leaves]), fun _ => ⟨rfl, rfl⟩⟩
  | cons r readers ih =>
    obtain ⟨hnow, hstays, hlater⟩ := refreshReader_orphan h
    obtain ⟨htaken, hkept⟩ := ih h.tail
    rw [leaves_cons, List.foldl_cons]
    by_cases hcase : LeavesNow s r i
    · -- taken away now, and nothing is put back
      obtain ⟨hcache, hpin⟩ := hnow hcase
      refine ⟨fun _ => ?_, fun hno => absurd (.inl hcase) hno⟩
      by_cases hrest : Leaves (refreshReader maxId s r) readers i
      · exact htaken hrest
      · rw [(hkept hrest).1, (hkept hrest).2]
        exact ⟨hcache, hpin⟩
    · obtain ⟨hcache, hpin⟩ := hstays hcase
      have hiff := hlater hcase
      refine ⟨fun hleaves => htaken (hiff.mpr (hleaves.resolve_left hcase)), fun hno => ?_⟩
      have hrest := hkept fun hrest => hno (.inr (hiff.mp hrest))
      exact ⟨hrest.1.trans hcache, hrest.2.trans hpin⟩

/-! ## §6. The whole refresh -/

theorem refreshReader_remote (maxId : Nat) (s : ModuleState Objects) (r : Reading Objects) :
    (refreshReader maxId s r).remoteLoggedIn = s.remoteLoggedIn := by
  have heffect := refreshReader_effect maxId s r
  generalize refreshReader maxId s r = s' at heffect
  cases heffect <;> rfl

/-- No refresh of the local readers ends a remote login. -/
theorem refresh_remote (maxId : Nat) (readers : List (Reading Objects))
    (s : ModuleState Objects) :
    (readers.foldl (refreshReader maxId) s).remoteLoggedIn = s.remoteLoggedIn := by
  induction readers generalizing s with
  | nil => rfl
  | cons r readers ih => rw [List.foldl_cons, ih, refreshReader_remote]

/-- Among PC/SC slots a login is a remote login or a held PIN. -/
theorem isLoggedIn_iff {s : ModuleState Objects} {i : Nat}
    (h : ∀ slot ∈ s.slots, slot.id = i → slot.isLocal = true) :
    s.isLoggedIn i = true ↔ i ∈ s.remoteLoggedIn ∨ s.pinHeld i = true := by
  have hlocal : (s.slot i).any (fun slot => !slot.isLocal) = false := by
    cases hslot : s.slot i with
    | none => rfl
    | some slot =>
      have hid : slot.id = i := by simpa using List.find?_some hslot
      simp [h slot (List.mem_of_find?_eq_some hslot) hid]
  simp [ModuleState.isLoggedIn, hlocal]

/-- A slot of the refreshed table was in the table, or is of a new reader with a card. -/
theorem mem_slots_refresh {maxId : Nat} {readers : List (Reading Objects)}
    {s : ModuleState Objects} {slot : SlotRecord}
    (h : slot ∈ (readers.foldl (refreshReader maxId) s).slots) :
    (∃ old ∈ s.slots, old.id = slot.id ∧ old.readerName = slot.readerName) ∨
      slot.id ∈ givenIds maxId s.names s.nextSlotId readers ∧
        Backed readers slot.readerName := by
  obtain ⟨tail, hkeys, hids, hbacked⟩ := refresh_keys maxId readers s
  have hkey : (slot.id, slot.readerName) ∈ s.keys ++ tail :=
    hkeys ▸ List.mem_map.mpr ⟨slot, h, rfl⟩
  obtain hkey | hkey := List.mem_append.mp hkey
  · obtain ⟨old, hmem, hold⟩ := List.mem_map.mp hkey
    simp only [Prod.mk.injEq] at hold
    exact .inl ⟨old, hmem, hold⟩
  · exact .inr ⟨hids ▸ List.mem_map.mpr ⟨_, hkey, rfl⟩, hbacked _ hkey⟩

/-- No slot is lost, and each id given has its slot. -/
theorem slots_refresh_mem {maxId : Nat} {readers : List (Reading Objects)}
    {s : ModuleState Objects} :
    (∀ old ∈ s.slots, ∃ slot ∈ (readers.foldl (refreshReader maxId) s).slots,
        slot.id = old.id ∧ slot.readerName = old.readerName) ∧
      ∀ i ∈ givenIds maxId s.names s.nextSlotId readers,
        ∃ slot ∈ (readers.foldl (refreshReader maxId) s).slots,
          slot.id = i ∧ Backed readers slot.readerName := by
  obtain ⟨tail, hkeys, hids, hbacked⟩ := refresh_keys maxId readers s
  constructor
  · intro old hold
    have hkey : (old.id, old.readerName) ∈ (readers.foldl (refreshReader maxId) s).keys :=
      hkeys ▸ List.mem_append_left _ (List.mem_map.mpr ⟨old, hold, rfl⟩)
    obtain ⟨slot, hslot, heq⟩ := List.mem_map.mp hkey
    simp only [Prod.mk.injEq] at heq
    exact ⟨slot, hslot, heq⟩
  · intro i hi
    rw [← hids] at hi
    obtain ⟨key, hkey, rfl⟩ := List.mem_map.mp hi
    have hmem : key ∈ (readers.foldl (refreshReader maxId) s).keys :=
      hkeys ▸ List.mem_append_right _ hkey
    obtain ⟨slot, hslot, rfl⟩ := List.mem_map.mp hmem
    exact ⟨slot, hslot, rfl, hbacked _ hkey⟩

/-- The slots before a refresh have their places in it. -/
theorem getElem?_of_unbacked {maxId : Nat} {readers : List (Reading Objects)}
    {s : ModuleState Objects} {pos : Nat} {slot : SlotRecord}
    (hslot : (readers.foldl (refreshReader maxId) s).slots[pos]? = some slot)
    (hunbacked : ¬ Backed readers slot.readerName) :
    ∃ old, s.slots[pos]? = some old ∧ old.readerName = slot.readerName := by
  obtain ⟨tail, hkeys, -, hbacked⟩ := refresh_keys maxId readers s
  have hkey : (s.keys ++ tail)[pos]? = some (slot.id, slot.readerName) := by
    rw [← hkeys, ModuleState.keys, List.getElem?_map, hslot]
    rfl
  by_cases hlt : pos < s.keys.length
  · rw [List.getElem?_append_left hlt, ModuleState.keys, List.getElem?_map] at hkey
    obtain ⟨old, hold, heq⟩ := Option.map_eq_some_iff.mp hkey
    simp only [Prod.mk.injEq] at heq
    exact ⟨old, hold, heq.2⟩
  · rw [List.getElem?_append_right (Nat.le_of_not_lt hlt)] at hkey
    exact absurd (hbacked _ (List.mem_of_getElem? hkey)) hunbacked

theorem noGhost_of_accounted {maxId : Nat} {readers : List (Reading Objects)}
    {s : ModuleState Objects} (h : Accounted maxId s readers) :
    NoGhost readers (refreshSlotsWith maxId s (some readers)) := by
  constructor
  · intro slot hslot hlocal hpresent
    by_contra hunbacked
    obtain ⟨pos, hpos⟩ := List.mem_iff_getElem?.mp hslot
    obtain ⟨old, hold, hname⟩ := getElem?_of_unbacked hpos hunbacked
    rw [← hname] at hunbacked
    obtain ⟨present, hafter, hiff⟩ := refresh_present maxId hold hunbacked
    obtain rfl := Option.some.inj (hpos.symm.trans hafter)
    obtain ⟨hbefore, hno⟩ := hiff.mp hpresent
    exact hno (h.present pos old hold hlocal hunbacked hbefore)
  · intro slot hslot hlocal hheld
    by_contra hnone
    have hall : ∀ other ∈ (readers.foldl (refreshReader maxId) s).slots, other.id = slot.id →
        other.isLocal = true ∧ ¬ Backed readers other.readerName := by
      intro other hother hid
      by_contra hcase
      refine hnone ⟨other, hother, hid, fun hother => ?_⟩
      by_contra hunbacked
      exact hcase ⟨hother, hunbacked⟩
    have horphaned : Orphaned maxId s readers slot.id := by
      refine ⟨fun old hold hid => ?_, fun hgiven => ?_⟩
      · obtain ⟨other, hother, hid', hname⟩ := slots_refresh_mem.1 old hold
        have hspec := hall other hother (hid'.trans hid)
        exact ⟨by simpa [SlotRecord.isLocal, hname] using hspec.1, hname ▸ hspec.2⟩
      · obtain ⟨other, hother, hid, hbacked⟩ := slots_refresh_mem.2 slot.id hgiven
        exact (hall other hother hid).2 hbacked
    obtain ⟨old, hold, hid, hname⟩ | ⟨hgiven, -⟩ := mem_slots_refresh hslot
    · have hlocal' : old.isLocal = true := by simpa [SlotRecord.isLocal, hname] using hlocal
      obtain ⟨hremote, hleaves⟩ := h.held old hold hlocal' (hid ▸ horphaned)
      rw [hid] at hremote hleaves
      obtain ⟨htaken, hkept⟩ := refresh_held maxId horphaned
      have hlogin := isLoggedIn_iff (s := readers.foldl (refreshReader maxId) s)
        fun other hother hid => (hall other hother hid).1
      rw [refresh_remote] at hlogin
      have hgone : (readers.foldl (refreshReader maxId) s).tokenCache slot.id = none ∧
          (readers.foldl (refreshReader maxId) s).pinHeld slot.id = false := by
        by_cases hcase : Leaves s readers slot.id
        · exact htaken hcase
        · rw [(hkept hcase).1, (hkept hcase).2]
          have hnone := mt hleaves hcase
          rw [not_or] at hnone
          exact ⟨by simpa using hnone.1, by simpa using hnone.2⟩
      obtain hcache | hlogged := hheld
      · exact absurd hcache (by
          show ¬ ((readers.foldl (refreshReader maxId) s).tokenCache slot.id).isSome = true
          simp [hgone.1])
      · obtain hlogged | hlogged := hlogin.mp hlogged
        · exact hremote hlogged
        · exact absurd hlogged (by simp [hgone.2])
    · exact horphaned.2 hgiven

theorem accounted_of_noGhost {maxId : Nat} {readers : List (Reading Objects)}
    {s : ModuleState Objects}
    (h : NoGhost readers (refreshSlotsWith maxId s (some readers))) :
    Accounted maxId s readers := by
  constructor
  · intro pos slot hslot hlocal hunbacked hpresent
    obtain ⟨present, hafter, hiff⟩ := refresh_present maxId hslot hunbacked
    by_contra hno
    have hstill : present = true := hiff.mpr ⟨hpresent, hno⟩
    exact hunbacked (h.present { slot with cardPresent := present }
      (List.mem_of_getElem? hafter) hlocal hstill)
  · intro slot hslot hlocal horphaned
    obtain ⟨htaken, hkept⟩ := refresh_held maxId horphaned
    obtain ⟨slot', hslot', hid, hname⟩ :=
      (@slots_refresh_mem _ maxId readers _).1 slot hslot
    have hlocal' : slot'.isLocal = true := by simpa [SlotRecord.isLocal, hname] using hlocal
    -- nothing is held under the id after the refresh
    have hfree : ¬ (readers.foldl (refreshReader maxId) s).Held slot.id := by
      intro hheld
      obtain ⟨other, hother, hid', hspec⟩ := h.held slot' hslot' hlocal' (hid ▸ hheld)
      obtain ⟨old, hold, hidold, hnameold⟩ | ⟨hgiven, -⟩ := mem_slots_refresh hother
      · obtain ⟨hl, hub⟩ := horphaned.1 old hold (hidold.trans (hid'.trans hid))
        exact hub (hnameold ▸ hspec (by simpa [SlotRecord.isLocal, hnameold] using hl))
      · exact horphaned.2 (hid'.trans hid ▸ hgiven)
    refine ⟨fun hremote => hfree (.inr ?_), fun hbefore => ?_⟩
    · rw [← refresh_remote maxId readers s] at hremote
      simp [ModuleState.isLoggedIn, hremote]
    · by_contra hstays
      obtain ⟨hcache, hpin⟩ := hkept hstays
      obtain hbefore | hbefore := hbefore
      · exact hfree (.inl (hcache ▸ hbefore))
      · exact hfree (.inr (by simp [ModuleState.isLoggedIn, hpin, hbefore]))

/-- **When no ghost stays.** After a refresh over any readers from any state, the PC/SC slots
    keep nothing the enumeration does not back, exactly when it accounted for all before. -/
theorem noGhost_iff (maxId : Nat) (s : ModuleState Objects) (readers : List (Reading Objects)) :
    NoGhost readers (refreshSlotsWith maxId s (some readers)) ↔ Accounted maxId s readers :=
  ⟨accounted_of_noGhost, noGhost_of_accounted⟩

/-- With distinct ids what is kept is kept for a backed slot. -/
theorem NoGhost.held_backed {readers : List (Reading Objects)} {s : ModuleState Objects}
    (h : NoGhost readers s) (hids : s.slotIds.Nodup) {slot : SlotRecord} (hslot : slot ∈ s.slots)
    (hlocal : slot.isLocal = true) (hheld : s.Held slot.id) : Backed readers slot.readerName := by
  obtain ⟨other, hother, hid, hspec⟩ := h.held slot hslot hlocal hheld
  obtain rfl := List.inj_on_of_nodup_map hids hother hslot hid
  exact hspec hlocal

/-! ## §7. An unplugged reader -/

/-- A reader with a card. -/
def pluggedReading : Reading Unit where
  name := "Reader A"
  cardPresent := true
  probe := .present
  objects := some ()
  identity := ⟨none, none⟩

/-- The state a run reaches in which the reader has its slot. -/
def pluggedState : ModuleState Unit :=
  after CkUlong.bits32.max [.refreshLocal (some [pluggedReading])]

/-- A reader that is unplugged keeps its card and its token objects. -/
theorem unplugged_reader_keeps_card :
    ¬ ∀ readers, NoGhost readers
      (refreshSlotsWith CkUlong.bits32.max pluggedState (some readers)) := by
  intro h
  have hpresent := (h []).present ⟨1, "Reader A", true, ⟨none, none⟩⟩
    (by decide +kernel) (by decide +kernel) rfl
  obtain ⟨r, hr, -⟩ := hpresent
  exact absurd hr (by simp)

end RefineId.Slots
