/-
  RefineId.SlotEvents — the events of `C_WaitForSlotEvent`.
  ════════════════════════════════════════════════════════════════════════════

  `take_slot_event` compares the presence of each slot with what was last reported for
  its id, and reports the first that differs.

  Main results:
    • `takeAll_of_alone` : slots alone under their ids are reported once, in order.
    • `drains_iff`       : the events are complete exactly when the pending slots are.
-/
import RefineId.Slots

namespace RefineId.Slots

variable {Objects : Type}

/-! ## §1. Taking events -/

/-- The module's state with `event_reported`. -/
structure WaitState (Objects : Type) where
  state : ModuleState Objects
  reported : Nat → Option Bool

/-- Whether a slot's presence differs from what was last reported. -/
def WaitState.differs (w : WaitState Objects) (slot : SlotRecord) : Bool :=
  w.reported slot.id != some slot.cardPresent

/-- The snapshot with the presence of one slot reported. -/
def WaitState.report (w : WaitState Objects) (slot : SlotRecord) : WaitState Objects :=
  { w with reported := Function.update w.reported slot.id (some slot.cardPresent) }

/-- `take_slot_event`. -/
def takeSlotEvent (w : WaitState Objects) : Option Nat × WaitState Objects :=
  match w.state.slots.find? w.differs with
  | some slot => (some slot.id, w.report slot)
  | none => (none, w)

/-- Calls of `take_slot_event` until one returns `None`, and the ids they return; `none`
    when so many calls are not enough. -/
def takeAll : Nat → WaitState Objects → Option (List Nat × WaitState Objects)
  | 0, _ => none
  | calls + 1, w =>
    match takeSlotEvent w with
    | (none, w') => some ([], w')
    | (some id, w') => (takeAll calls w').map fun taken => (id :: taken.1, taken.2)

/-- The slots with an event pending, in table order. -/
def WaitState.pending (w : WaitState Objects) : List SlotRecord := w.state.slots.filter w.differs

/-- Within one call more than there are slots the pending slots are reported, each once and
    in order, and the snapshot is the current presence: a further call has nothing. -/
def WaitState.Drains (w : WaitState Objects) : Prop :=
  ∃ w', takeAll (w.state.slots.length + 1) w = some (w.pending.map SlotRecord.id, w') ∧
    w'.state = w.state ∧
    (∀ slot ∈ w.state.slots, w'.reported slot.id = some slot.cardPresent) ∧
    takeSlotEvent w' = (none, w')

/-- No pending slot shares its id. -/
def WaitState.Alone (w : WaitState Objects) : Prop :=
  ∀ slot ∈ w.pending, w.state.slotIds.count slot.id = 1

/-! ## §2. Complete events -/

theorem takeSlotEvent_none {w : WaitState Objects} (h : w.pending = []) :
    takeSlotEvent w = (none, w) := by
  have hnone : w.state.slots.find? w.differs = none := by
    rw [List.find?_eq_none]
    exact List.filter_eq_nil_iff.mp h
  simp only [takeSlotEvent, hnone]

/-- The first pending slot is reported; where it is alone under its id the others are as
    they were. -/
theorem takeSlotEvent_cons {w : WaitState Objects} {slot : SlotRecord} {rest : List SlotRecord}
    (h : w.pending = slot :: rest) (halone : w.Alone) :
    takeSlotEvent w = (some slot.id, w.report slot) ∧ (w.report slot).pending = rest := by
  have hsome : w.state.slots.find? w.differs = some slot := by
    rw [← List.head?_filter]
    exact (congrArg List.head? h).trans rfl
  refine ⟨by simp only [takeSlotEvent, hsome], ?_⟩
  obtain ⟨hdiffers, before, behind, hslots, hbefore⟩ :=
    List.find?_eq_some_iff_append.mp hsome
  have hone := halone slot (h ▸ List.mem_cons_self)
  -- no slot before or behind it has its id
  have hids : slot.id ∉ before.map SlotRecord.id ∧ slot.id ∉ behind.map SlotRecord.id := by
    rw [ModuleState.slotIds, hslots, List.map_append, List.map_cons, List.count_append,
      List.count_cons_self] at hone
    exact ⟨List.count_eq_zero.mp (by omega), List.count_eq_zero.mp (by omega)⟩
  have hframe : ∀ other, other.id ≠ slot.id → (w.report slot).differs other = w.differs other := by
    intro other hne
    simp only [WaitState.differs, WaitState.report, Function.update_of_ne hne]
  have hself : (w.report slot).differs slot = false := by
    simp [WaitState.differs, WaitState.report]
  have hbehind : (w.report slot).pending = behind.filter w.differs := by
    have hfirst : before.filter (w.report slot).differs = [] := by
      refine List.filter_eq_nil_iff.mpr fun other hother => ?_
      rw [hframe other fun hid => hids.1 (hid ▸ List.mem_map_of_mem hother)]
      simpa using hbefore other hother
    have hlast : behind.filter (w.report slot).differs = behind.filter w.differs :=
      List.filter_congr fun other hother =>
        hframe other fun hid => hids.2 (hid ▸ List.mem_map_of_mem hother)
    have hslots' : (w.report slot).state.slots = before ++ slot :: behind := hslots
    rw [WaitState.pending, hslots', List.filter_append, List.filter_cons, hself, hfirst, hlast]
    rfl
  have hpending : w.pending = slot :: behind.filter w.differs := by
    have hfirst : before.filter w.differs = [] :=
      List.filter_eq_nil_iff.mpr fun other hother => by simpa using hbefore other hother
    rw [WaitState.pending, hslots, List.filter_append, List.filter_cons, hdiffers, hfirst]
    rfl
  rw [hbehind]
  exact (List.cons.inj (hpending.symm.trans h)).2

theorem WaitState.Alone.report {w : WaitState Objects} {slot : SlotRecord} {rest : List SlotRecord}
    (halone : w.Alone) (h : w.pending = slot :: rest) : (w.report slot).Alone := by
  intro other hother
  rw [(takeSlotEvent_cons h halone).2] at hother
  exact halone other (h ▸ List.mem_cons_of_mem slot hother)

/-- **Slots alone under their ids are reported once, in order.** -/
theorem takeAll_of_alone {w : WaitState Objects} (halone : w.Alone) {calls : Nat}
    (hcalls : w.pending.length < calls) :
    ∃ w', takeAll calls w = some (w.pending.map SlotRecord.id, w') ∧ w'.state = w.state ∧
      w'.pending = [] := by
  induction calls generalizing w with
  | zero => exact absurd hcalls (by omega)
  | succ calls ih =>
    cases hpending : w.pending with
    | nil =>
      refine ⟨w, ?_, rfl, hpending⟩
      simp only [takeAll, takeSlotEvent_none hpending, List.map_nil]
    | cons slot rest =>
      obtain ⟨hevent, hrest⟩ := takeSlotEvent_cons hpending halone
      rw [hpending, List.length_cons] at hcalls
      obtain ⟨w', htake, hstate, hdone⟩ := ih (halone.report hpending)
        (by rw [hrest]; omega)
      refine ⟨w', ?_, hstate, hdone⟩
      simp only [takeAll, hevent, htake, hrest, Option.map_some, List.map_cons]

theorem drains_of_alone {w : WaitState Objects} (halone : w.Alone) : w.Drains := by
  have hle : w.pending.length ≤ w.state.slots.length := List.length_filter_le _ _
  obtain ⟨w', htake, hstate, hdone⟩ := takeAll_of_alone halone (Nat.lt_succ_of_le hle)
  refine ⟨w', htake, hstate, fun slot hslot => ?_, takeSlotEvent_none hdone⟩
  have hsame := List.filter_eq_nil_iff.mp hdone slot (hstate ▸ hslot)
  simpa [WaitState.differs] using hsame

/-! ## §3. Shared ids -/

/-- A call that reports, and the calls after it. -/
theorem takeAll_succ {calls : Nat} {w w' : WaitState Objects} {ids : List Nat}
    (h : takeAll (calls + 1) w = some (ids, w')) :
    ids = [] ∨ ∃ slot ids', slot ∈ w.state.slots ∧ w.differs slot = true ∧
      ids = slot.id :: ids' ∧ takeAll calls (w.report slot) = some (ids', w') := by
  cases hfind : w.state.slots.find? w.differs with
  | none =>
    simp only [takeAll, takeSlotEvent, hfind, Option.some.injEq, Prod.mk.injEq] at h
    exact .inl h.1.symm
  | some slot =>
    simp only [takeAll, takeSlotEvent, hfind] at h
    obtain ⟨taken, htaken, heq⟩ := Option.map_eq_some_iff.mp h
    simp only [Prod.mk.injEq] at heq
    refine .inr ⟨slot, taken.1, List.mem_of_find?_eq_some hfind, List.find?_some hfind,
      heq.1.symm, ?_⟩
    rw [htaken, ← heq.2]

/-- Once the presence all slots of an id have is reported, the id is not reported again. -/
theorem not_mem_takeAll {calls : Nat} {w w' : WaitState Objects} {ids : List Nat} {id : Nat}
    {present : Bool} (htake : takeAll calls w = some (ids, w'))
    (hsame : ∀ slot ∈ w.state.slots, slot.id = id → slot.cardPresent = present)
    (hreported : w.reported id = some present) : id ∉ ids := by
  induction calls generalizing w ids with
  | zero => exact absurd htake (by simp [takeAll])
  | succ calls ih =>
    obtain hnil | ⟨slot, ids', hslot, hdiffers, hids, hrest⟩ := takeAll_succ htake
    · simp [hnil]
    · have hne : slot.id ≠ id := by
        intro hid
        simp [WaitState.differs, hid, hreported, hsame slot hslot hid] at hdiffers
      have hlater := ih hrest hsame ((Function.update_of_ne (Ne.symm hne) _ _).trans hreported)
      rw [hids, List.mem_cons, not_or]
      exact ⟨Ne.symm hne, hlater⟩

/-- Slots that share an id and their presence are reported once between them. -/
theorem count_takeAll {calls : Nat} {w w' : WaitState Objects} {ids : List Nat} {id : Nat}
    {present : Bool} (htake : takeAll calls w = some (ids, w'))
    (hsame : ∀ slot ∈ w.state.slots, slot.id = id → slot.cardPresent = present) :
    ids.count id ≤ 1 := by
  induction calls generalizing w ids with
  | zero => exact absurd htake (by simp [takeAll])
  | succ calls ih =>
    obtain hnil | ⟨slot, ids', hslot, -, hids, hrest⟩ := takeAll_succ htake
    · simp [hnil]
    · by_cases hid : slot.id = id
      · have hreported : (w.report slot).reported id = some present := by
          rw [← hsame slot hslot hid, ← hid]
          exact Function.update_self _ _ _
        have hnot := not_mem_takeAll hrest hsame hreported
        rw [hids, hid, List.count_cons_self, List.count_eq_zero.mpr hnot]
      · rw [hids, List.count_cons_of_ne hid]
        exact ih hrest hsame

/-- How often an id stands among the pending slots, where all its slots are pending. -/
theorem count_pending {w : WaitState Objects} {id : Nat}
    (h : ∀ slot ∈ w.state.slots, slot.id = id → w.differs slot = true) :
    (w.pending.map SlotRecord.id).count id = w.state.slotIds.count id := by
  rw [WaitState.pending, ModuleState.slotIds, List.count_eq_countP, List.count_eq_countP, List.countP_map,
    List.countP_map, List.countP_filter]
  refine List.countP_congr fun slot hslot => ?_
  simp only [Function.comp, Bool.and_eq_true, beq_iff_eq]
  exact ⟨fun hboth => hboth.1, fun hid => ⟨hid, h slot hslot hid⟩⟩

theorem alone_of_drains {w : WaitState Objects} (h : w.Drains) : w.Alone := by
  obtain ⟨w', htake, -, hsnapshot, -⟩ := h
  intro slot hpending
  obtain ⟨hslot, hdiffers⟩ := List.mem_filter.mp hpending
  have hpos : 0 < w.state.slotIds.count slot.id :=
    List.count_pos_iff.mpr (List.mem_map_of_mem hslot)
  -- the snapshot has room for one presence under the id
  have hsame : ∀ other ∈ w.state.slots, other.id = slot.id →
      other.cardPresent = slot.cardPresent := by
    intro other hother hid
    have hreported := hsnapshot other hother
    rw [hid, hsnapshot slot hslot] at hreported
    exact (Option.some.inj hreported).symm
  have hall : ∀ other ∈ w.state.slots, other.id = slot.id → w.differs other = true := by
    intro other hother hid
    rw [← hdiffers]
    simp only [WaitState.differs, hid, hsame other hother hid]
  have hcount := count_takeAll htake hsame
  rw [count_pending hall] at hcount
  omega

/-- **When events are complete.** From any state the events are complete, and each is
    reported once, exactly when no pending slot shares its id. -/
theorem drains_iff (w : WaitState Objects) : w.Drains ↔ w.Alone :=
  ⟨alone_of_drains, drains_of_alone⟩

/-- With distinct ids the events are complete, whatever was reported. -/
theorem drains_of_nodup {w : WaitState Objects} (h : w.state.slotIds.Nodup) : w.Drains := by
  refine drains_of_alone fun slot hpending => ?_
  have hslot := (List.mem_filter.mp hpending).1
  exact List.count_eq_one_of_mem h (List.mem_map_of_mem hslot)

/-- So they are after every run whose readers do not outnumber the ids. -/
theorem drains_after {maxId : Nat} (hmax : 0 < maxId) {ops : List (Op Objects)}
    (hroom : (ops.flatMap admittedNames).dedup.length ≤ maxId) (reported : Nat → Option Bool) :
    (WaitState.mk (after maxId ops) reported).Drains :=
  drains_of_nodup ((slotIds_nodup_iff hmax ops).mpr hroom)

/-! ## §4. A crowded table -/

/-- Before any event was reported, every slot is pending. -/
theorem nodup_of_unreported {s : ModuleState Objects}
    (h : (WaitState.mk s fun _ => none).Alone) : s.slotIds.Nodup := by
  refine List.nodup_iff_count_le_one.mpr fun id => ?_
  by_cases hmem : id ∈ s.slotIds
  · obtain ⟨slot, hslot, rfl⟩ := List.mem_map.mp hmem
    exact (h slot (List.mem_filter.mpr ⟨hslot, rfl⟩)).le
  · rw [List.count_eq_zero.mpr hmem]
    omega

/-- Two slots that share an id, of which nothing was reported, are reported once. -/
theorem shared_event_lost :
    ¬ ∀ reported, (WaitState.mk
      (after CkUlong.bits32.max (manyRefreshes CkUlong.bits32.max)) reported).Drains := by
  intro h
  have hnodup := nodup_of_unreported (alone_of_drains (h fun _ => none))
  rw [slotIds_nodup_iff CkUlong.bits32.max_pos, manyRefreshes_names] at hnodup
  omega

end RefineId.Slots
