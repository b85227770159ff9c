/-
  RefineId.PinCache — the held PIN 1 and the PINs a card has refused.
  ════════════════════════════════════════════════════════════════════════════

  `crates/refineid-lib-core/src/pin_cache.rs`: one PIN 1 may be held between uses.  A use
  checks it out, and the checkout may come back much later, after any number of other
  operations; a generation counter tells whether the cache has moved on since.  A PIN the
  card refused is remembered by a keyed fingerprint and never held again.

  The system here is the cache with the checkouts that are in flight; a run is any list of
  operations on the two.

  Main results:
    • `step_cases`            : what one operation can do.
    • `inv_run`               : the invariant of every run with fewer than 2^64 invalidations.
    • `pinCache_safety`       : no refused PIN is handed out again, there is one live copy,
                                and a checkout from before an invalidation stays out.
    • `stagePin1Once_handed`  : a PIN staged once is handed out once, in every run that puts
                                no staged checkout back after an unanswered exchange.
-/
import RefineId.CardPin

namespace RefineId

namespace PinCache

open CardPin

/-! ## §1. The cache -/

/-- `TokenSerial`, by the octets of its string. -/
structure TokenSerial where
  utf8 : Bytes
  deriving Repr, DecidableEq

/-- `Pin1Retention`. -/
inductive Pin1Retention where
  | reusable
  | oneShot
  deriving Repr, DecidableEq

/-- `PreviouslyRejectedPin`. -/
structure PreviouslyRejectedPin where
  slot : PinSlot
  deriving Repr, DecidableEq

/-- `HeldPin1`. -/
structure HeldPin1 where
  serial : TokenSerial
  pin : PinBytes
  generation : UInt64
  retention : Pin1Retention
  deriving DecidableEq

/-- `CheckedOutPin1`. -/
structure CheckedOutPin1 where
  entry : HeldPin1
  deriving DecidableEq

/-- `PinSafetyCache`. -/
structure PinSafetyCache where
  heldPin1 : Option HeldPin1
  generation : UInt64
  fingerprintKey : Bytes
  rejectedPin1 : List Bytes
  rejectedPin2 : List Bytes
  deriving DecidableEq

/-- `PinSafetyCache::new`, with the random key it drew. -/
def PinSafetyCache.new (fingerprintKey : Bytes) : PinSafetyCache :=
  ⟨none, 0, fingerprintKey, [], []⟩

/-- `pin1_status_permits_reusable_cache`. -/
def pin1StatusPermitsReusableCache : PinStatus → Bool
  | .remaining retries =>
    match PinRetryRisk.fromRetries retries with
    | some .normalOperatingConditions => true
    | _ => false
  | _ => false

/-- `permits_held_pin1`. -/
def permitsHeldPin1 (live : PinStatus) : Bool :=
  live == .verified || pin1StatusPermitsReusableCache live

/-- `PinSafetyCache::rejected`. -/
def PinSafetyCache.rejected (c : PinSafetyCache) : PinSlot → List Bytes
  | .pin1 => c.rejectedPin1
  | .pin2 => c.rejectedPin2

/-- `PinSafetyCache::clear_positive`. -/
def PinSafetyCache.clearPositive (c : PinSafetyCache) : PinSafetyCache :=
  { c with heldPin1 := none, generation := c.generation + 1 }

/-- `PinSafetyCache::has_positive_pin1`. -/
def PinSafetyCache.hasPositivePin1 (c : PinSafetyCache) : Bool := c.heldPin1.isSome

/-- `PinSafetyCache::checkout_pin1`. -/
def PinSafetyCache.checkoutPin1 (c : PinSafetyCache) (liveSerial : TokenSerial)
    (liveStatus : PinStatus) : PinSafetyCache × Option CheckedOutPin1 :=
  match c.heldPin1 with
  | none => (c, none)
  | some entry =>
    if entry.serial = liveSerial ∧ permitsHeldPin1 liveStatus then
      ({ c with heldPin1 := none }, some ⟨entry⟩)
    else (c.clearPositive, none)

/-- `CheckedOutPin1::restore`. -/
def CheckedOutPin1.restore (co : CheckedOutPin1) (c : PinSafetyCache) : PinSafetyCache :=
  if c.generation ≠ co.entry.generation ∨ c.heldPin1.isSome then c
  else { c with heldPin1 := some co.entry }

/-- `CheckedOutPin1::restore_after_success`. -/
def CheckedOutPin1.restoreAfterSuccess (co : CheckedOutPin1) (c : PinSafetyCache) :
    PinSafetyCache :=
  if co.entry.retention = .oneShot then c else co.restore c

/-- `CheckedOutPin1::restore_after_unanswered`: here the retention is not asked. -/
def CheckedOutPin1.restoreAfterUnanswered (co : CheckedOutPin1) (c : PinSafetyCache) :
    PinSafetyCache :=
  co.restore c

/-- `u32::to_be_bytes`. -/
def u32ToBeBytes (n : Nat) : Bytes :=
  [UInt8.ofNat (n / 16777216), UInt8.ofNat (n / 65536), UInt8.ofNat (n / 256), UInt8.ofNat n]

section
variable (hmac : Bytes → Bytes → Bytes)

/-- `PinSafetyCache::fingerprint`.  `hmac` is HMAC-SHA-256 of a key and a message; the two
    zero marks are the source's fail-closed branches. -/
def PinSafetyCache.fingerprint (c : PinSafetyCache) (serial : TokenSerial) (slot : PinSlot)
    (pin : PinBytes) : Bytes :=
  let slotTag : UInt8 := match slot with
    | .pin1 => 1
    | .pin2 => 2
  if 255 < pin.digitCount then List.replicate 32 0
  else if 2 ^ 32 ≤ serial.utf8.length then List.replicate 32 0
  else hmac c.fingerprintKey (u32ToBeBytes serial.utf8.length ++ serial.utf8 ++ [slotTag] ++
    [UInt8.ofNat pin.digitCount] ++ pin.bytes)

/-- `PinSafetyCache::is_rejected`. -/
def PinSafetyCache.isRejected (c : PinSafetyCache) (serial : TokenSerial) (slot : PinSlot)
    (pin : PinBytes) : Bool :=
  (c.rejected slot).any (· == c.fingerprint hmac serial slot pin)

/-- The push of `record_rejected` into the memory of a slot. -/
def PinSafetyCache.pushRejected (c : PinSafetyCache) (slot : PinSlot) (mark : Bytes) :
    PinSafetyCache :=
  match slot with
  | .pin1 => { c with rejectedPin1 := c.rejectedPin1 ++ [mark] }
  | .pin2 => { c with rejectedPin2 := c.rejectedPin2 ++ [mark] }

/-- `PinSafetyCache::record_rejected`. -/
def PinSafetyCache.recordRejected (c : PinSafetyCache) (serial : TokenSerial) (slot : PinSlot)
    (pin : PinBytes) : PinSafetyCache :=
  let cleared := c.clearPositive
  if cleared.isRejected hmac serial slot pin then cleared
  else cleared.pushRejected slot (cleared.fingerprint hmac serial slot pin)

/-- `PinSafetyCache::hold_pin1`. -/
def PinSafetyCache.holdPin1 (c : PinSafetyCache) (serial : TokenSerial) (pin : PinBytes)
    (retention : Pin1Retention) : PinSafetyCache × Except PreviouslyRejectedPin Unit :=
  if c.isRejected hmac serial .pin1 pin then (c, .error ⟨.pin1⟩)
  else
    let cleared := c.clearPositive
    ({ cleared with heldPin1 := some ⟨serial, pin, cleared.generation, retention⟩ }, .ok ())

/-- `PinSafetyCache::store_pin1`. -/
def PinSafetyCache.storePin1 (c : PinSafetyCache) (serial : TokenSerial) (pin : PinBytes) :
    PinSafetyCache × Except PreviouslyRejectedPin Unit :=
  c.holdPin1 hmac serial pin .reusable

/-- `PinSafetyCache::stage_pin1_once`. -/
def PinSafetyCache.stagePin1Once (c : PinSafetyCache) (serial : TokenSerial) (pin : PinBytes) :
    PinSafetyCache × Except PreviouslyRejectedPin Unit :=
  c.holdPin1 hmac serial pin .oneShot

/-! ## §2. Runs -/

/-- The cache and the checkouts in flight. -/
structure State where
  cache : PinSafetyCache
  inFlight : List CheckedOutPin1
  deriving DecidableEq

/-- One operation; a checkout in flight is named by its place. -/
inductive Op where
  | storePin1 (serial : TokenSerial) (pin : PinBytes)
  | stagePin1Once (serial : TokenSerial) (pin : PinBytes)
  | checkoutPin1 (serial : TokenSerial) (status : PinStatus)
  | restoreAfterSuccess (place : Nat)
  | restoreAfterUnanswered (place : Nat)
  | dropCheckout (place : Nat)
  | clearPositive
  | recordRejected (serial : TokenSerial) (slot : PinSlot) (pin : PinBytes)
  | hasPositivePin1
  | isRejected (serial : TokenSerial) (slot : PinSlot) (pin : PinBytes)
  deriving DecidableEq

/-- A checkout goes back, or is dropped: it is in flight no more. -/
def State.giveBack (s : State) (place : Nat)
    (back : CheckedOutPin1 → PinSafetyCache → PinSafetyCache) : State :=
  match s.inFlight[place]? with
  | none => s
  | some co => ⟨back co s.cache, s.inFlight.eraseIdx place⟩

/-- The checkout an operation hands out. -/
def handed (s : State) : Op → Option CheckedOutPin1
  | .checkoutPin1 serial status => (s.cache.checkoutPin1 serial status).2
  | _ => none

def step (s : State) : Op → State
  | .storePin1 serial pin => { s with cache := (s.cache.storePin1 hmac serial pin).1 }
  | .stagePin1Once serial pin => { s with cache := (s.cache.stagePin1Once hmac serial pin).1 }
  | .checkoutPin1 serial status =>
    ⟨(s.cache.checkoutPin1 serial status).1,
      (s.cache.checkoutPin1 serial status).2.toList ++ s.inFlight⟩
  | .restoreAfterSuccess place => s.giveBack place CheckedOutPin1.restoreAfterSuccess
  | .restoreAfterUnanswered place => s.giveBack place CheckedOutPin1.restoreAfterUnanswered
  | .dropCheckout place => s.giveBack place fun _ c => c
  | .clearPositive => { s with cache := s.cache.clearPositive }
  | .recordRejected serial slot pin =>
    { s with cache := s.cache.recordRejected hmac serial slot pin }
  | .hasPositivePin1 => s
  | .isRejected _ _ _ => s

def run (s : State) (ops : List Op) : State := ops.foldl (step hmac) s

/-- The empty cache, with nothing in flight. -/
def fresh (fingerprintKey : Bytes) : State := ⟨.new fingerprintKey, []⟩

/-- Whether an operation destroys what was held: a clear, a refusal, a new PIN, and a
    checkout for another card or at another counter. -/
def invalidates (s : State) : Op → Bool
  | .storePin1 serial pin => !s.cache.isRejected hmac serial .pin1 pin
  | .stagePin1Once serial pin => !s.cache.isRejected hmac serial .pin1 pin
  | .checkoutPin1 serial status =>
    match s.cache.heldPin1 with
    | none => false
    | some entry => !(decide (entry.serial = serial) && permitsHeldPin1 status)
  | .clearPositive => true
  | .recordRejected _ _ _ => true
  | _ => false

/-- How many operations of a run invalidate. -/
def invalidations (s : State) : List Op → Nat
  | [] => 0
  | op :: ops => (invalidates hmac s op).toNat + invalidations (step hmac s op) ops

/-- All checkouts a run hands out, in order. -/
def handedOut (s : State) : List Op → List CheckedOutPin1
  | [] => []
  | op :: ops => (handed s op).toList ++ handedOut (step hmac s op) ops

end

/-- The copies of PINs there are: held, or checked out. -/
def copies (s : State) : List HeldPin1 :=
  s.cache.heldPin1.toList ++ s.inFlight.map (·.entry)

/-- How many copies are of the current generation. -/
def liveCopies (s : State) : Nat := (copies s).countP (·.generation == s.cache.generation)

/-- `later` still knows every refusal `earlier` knew. -/
def Remembers (earlier later : PinSafetyCache) : Prop :=
  later.fingerprintKey = earlier.fingerprintKey ∧
    ∀ slot mark, mark ∈ earlier.rejected slot → mark ∈ later.rejected slot

/-! ## §3. What one operation can do -/

section
variable (hmac : Bytes → Bytes → Bytes)

/-- **The five things an operation can do.** -/
inductive Change (s : State) (op : Op) (s' : State) : Prop where
  /-- Nothing to the cache; a checkout may be gone. -/
  | quiet (hop : handed s op = none) (hinv : invalidates hmac s op = false)
      (hcache : s'.cache = s.cache) (hflight : s'.inFlight.Sublist s.inFlight)
  /-- What was held is destroyed; a refusal may be remembered. -/
  | cleared (hop : handed s op = none) (hinv : invalidates hmac s op = true)
      (hheld : s'.cache.heldPin1 = none)
      (hgen : s'.cache.generation = s.cache.generation + 1) (hflight : s'.inFlight = s.inFlight)
      (hmemory : Remembers s.cache s'.cache)
  /-- A PIN the memory does not know as refused takes the place of what was held. -/
  | stored (serial : TokenSerial) (pin : PinBytes) (retention : Pin1Retention)
      (hop : op = .storePin1 serial pin ∨ op = .stagePin1Once serial pin)
      (hinv : invalidates hmac s op = true)
      (hclean : s.cache.isRejected hmac serial .pin1 pin = false)
      (hcache : s'.cache = { s.cache.clearPositive with
        heldPin1 := some ⟨serial, pin, s.cache.generation + 1, retention⟩ })
      (hflight : s'.inFlight = s.inFlight)
  /-- What was held is handed out. -/
  | taken (entry : HeldPin1) (serial : TokenSerial) (status : PinStatus)
      (hop : op = .checkoutPin1 serial status) (hhanded : handed s op = some ⟨entry⟩)
      (hinv : invalidates hmac s op = false) (hheld : s.cache.heldPin1 = some entry)
      (hcache : s'.cache = { s.cache with heldPin1 := none })
      (hflight : s'.inFlight = ⟨entry⟩ :: s.inFlight)
  /-- A checkout of the current generation comes back. -/
  | restored (co : CheckedOutPin1) (place : Nat)
      (hop : op = .restoreAfterUnanswered place ∨
        (op = .restoreAfterSuccess place ∧ co.entry.retention ≠ .oneShot))
      (hinv : invalidates hmac s op = false) (hplace : s.inFlight[place]? = some co)
      (hgen : co.entry.generation = s.cache.generation) (hnone : s.cache.heldPin1 = none)
      (hcache : s'.cache = { s.cache with heldPin1 := some co.entry })
      (hflight : s'.inFlight = s.inFlight.eraseIdx place)

theorem remembers_refl (c : PinSafetyCache) : Remembers c c := ⟨rfl, fun _ _ h => h⟩

theorem remembers_clearPositive (c : PinSafetyCache) : Remembers c c.clearPositive :=
  ⟨rfl, fun slot _ h => by cases slot <;> exact h⟩

theorem Remembers.trans {a b c : PinSafetyCache} (hab : Remembers a b) (hbc : Remembers b c) :
    Remembers a c :=
  ⟨hbc.1.trans hab.1, fun slot mark h => hbc.2 slot mark (hab.2 slot mark h)⟩

theorem remembers_pushRejected (c : PinSafetyCache) (slot : PinSlot) (mark : Bytes) :
    Remembers c (c.pushRejected slot mark) := by
  refine ⟨by cases slot <;> rfl, fun slot' mark' h => ?_⟩
  cases slot with
  | pin1 =>
    cases slot' with
    | pin1 => exact List.mem_append_left _ h
    | pin2 => exact h
  | pin2 =>
    cases slot' with
    | pin1 => exact h
    | pin2 => exact List.mem_append_left _ h

theorem fingerprint_congr {a b : PinSafetyCache} (h : b.fingerprintKey = a.fingerprintKey)
    (serial : TokenSerial) (slot : PinSlot) (pin : PinBytes) :
    b.fingerprint hmac serial slot pin = a.fingerprint hmac serial slot pin := by
  unfold PinSafetyCache.fingerprint
  rw [h]

theorem isRejected_iff {c : PinSafetyCache} {serial : TokenSerial} {slot : PinSlot}
    {pin : PinBytes} :
    c.isRejected hmac serial slot pin = true ↔
      c.fingerprint hmac serial slot pin ∈ c.rejected slot := by
  simp [PinSafetyCache.isRejected]

theorem Remembers.isRejected {a b : PinSafetyCache} (h : Remembers a b) {serial : TokenSerial}
    {slot : PinSlot} {pin : PinBytes} (hrej : a.isRejected hmac serial slot pin = true) :
    b.isRejected hmac serial slot pin = true := by
  rw [isRejected_iff] at hrej ⊢
  rw [fingerprint_congr hmac h.1]
  exact h.2 slot _ hrej

theorem recordRejected_cases (c : PinSafetyCache) (serial : TokenSerial) (slot : PinSlot)
    (pin : PinBytes) :
    (c.clearPositive.isRejected hmac serial slot pin = true ∧
      c.recordRejected hmac serial slot pin = c.clearPositive) ∨
    c.recordRejected hmac serial slot pin = c.clearPositive.pushRejected slot
      (c.clearPositive.fingerprint hmac serial slot pin) := by
  by_cases h : c.clearPositive.isRejected hmac serial slot pin = true
  · exact .inl ⟨h, if_pos h⟩
  · exact .inr (if_neg h)

theorem recordRejected_clears (c : PinSafetyCache) (serial : TokenSerial) (slot : PinSlot)
    (pin : PinBytes) :
    (c.recordRejected hmac serial slot pin).heldPin1 = none ∧
      (c.recordRejected hmac serial slot pin).generation = c.generation + 1 := by
  obtain ⟨-, heq⟩ | heq := recordRejected_cases hmac c serial slot pin
  · rw [heq]
    exact ⟨rfl, rfl⟩
  · rw [heq]
    cases slot <;> exact ⟨rfl, rfl⟩

theorem remembers_recordRejected (c : PinSafetyCache) (serial : TokenSerial) (slot : PinSlot)
    (pin : PinBytes) : Remembers c (c.recordRejected hmac serial slot pin) := by
  obtain ⟨-, heq⟩ | heq := recordRejected_cases hmac c serial slot pin
  · rw [heq]
    exact remembers_clearPositive c
  · rw [heq]
    exact (remembers_clearPositive c).trans (remembers_pushRejected _ _ _)

/-- A refusal is known from then on. -/
theorem recordRejected_isRejected (c : PinSafetyCache) (serial : TokenSerial) (slot : PinSlot)
    (pin : PinBytes) : (c.recordRejected hmac serial slot pin).isRejected hmac serial slot pin := by
  obtain ⟨hknown, heq⟩ | heq := recordRejected_cases hmac c serial slot pin
  · rw [heq]
    exact hknown
  · rw [heq, isRejected_iff, fingerprint_congr hmac (remembers_pushRejected _ slot _).1]
    cases slot <;> exact List.mem_append_right _ (List.mem_singleton.mpr rfl)

theorem restore_cases (co : CheckedOutPin1) (c : PinSafetyCache) :
    co.restore c = c ∨ (co.entry.generation = c.generation ∧ c.heldPin1 = none ∧
      co.restore c = { c with heldPin1 := some co.entry }) := by
  unfold CheckedOutPin1.restore
  split
  · exact .inl rfl
  next h =>
    rw [not_or, not_not, Bool.not_eq_true, Option.isSome_eq_false_iff, Option.isNone_iff_eq_none]
      at h
    exact .inr ⟨h.1.symm, h.2, rfl⟩

theorem change_hold (s : State) {op : Op} {serial : TokenSerial} {pin : PinBytes}
    {retention : Pin1Retention}
    (hop : op = .storePin1 serial pin ∨ op = .stagePin1Once serial pin)
    (hstep : step hmac s op = { s with cache := (s.cache.holdPin1 hmac serial pin retention).1 }) :
    Change hmac s op (step hmac s op) := by
  have hnone : handed s op = none := by rcases hop with rfl | rfl <;> rfl
  have hinv : invalidates hmac s op = !s.cache.isRejected hmac serial .pin1 pin := by
    rcases hop with rfl | rfl <;> rfl
  rw [hstep]
  unfold PinSafetyCache.holdPin1
  by_cases hrej : s.cache.isRejected hmac serial .pin1 pin = true
  · rw [if_pos hrej]
    exact .quiet hnone (by rw [hinv, hrej]; rfl) rfl (List.Sublist.refl _)
  · rw [if_neg hrej]
    rw [Bool.not_eq_true] at hrej
    exact .stored serial pin retention hop (by rw [hinv, hrej]; rfl) hrej rfl rfl

theorem change_checkout (s : State) (serial : TokenSerial) (status : PinStatus) :
    Change hmac s (.checkoutPin1 serial status) (step hmac s (.checkoutPin1 serial status)) := by
  cases hheld : s.cache.heldPin1 with
  | none =>
    have hout : s.cache.checkoutPin1 serial status = (s.cache, none) := by
      simp [PinSafetyCache.checkoutPin1, hheld]
    refine .quiet ?_ ?_ ?_ ?_
    · simp [handed, hout]
    · simp [invalidates, hheld]
    · simp [step, hout]
    · simp [step, hout]
  | some entry =>
    by_cases hfits : entry.serial = serial ∧ permitsHeldPin1 status
    · have hout : s.cache.checkoutPin1 serial status
          = ({ s.cache with heldPin1 := none }, some ⟨entry⟩) := by
        simp [PinSafetyCache.checkoutPin1, hheld, hfits]
      refine .taken entry serial status rfl ?_ ?_ hheld ?_ ?_
      · simp [handed, hout]
      · simp [invalidates, hheld, hfits]
      · simp [step, hout]
      · simp [step, hout]
    · have hout : s.cache.checkoutPin1 serial status = (s.cache.clearPositive, none) := by
        simp only [PinSafetyCache.checkoutPin1, hheld, if_neg hfits]
      refine .cleared ?_ ?_ ?_ ?_ ?_ ?_
      · simp [handed, hout]
      · simp only [invalidates, hheld, Bool.not_eq_true', Bool.and_eq_false_iff,
          decide_eq_false_iff_not]
        by_cases hserial : entry.serial = serial
        · exact .inr (Bool.eq_false_iff.mpr fun hperm => hfits ⟨hserial, hperm⟩)
        · exact .inl hserial
      · simp [step, hout, PinSafetyCache.clearPositive]
      · simp [step, hout, PinSafetyCache.clearPositive]
      · simp [step, hout]
      · simp only [step, hout]
        exact remembers_clearPositive s.cache

theorem change_giveBack (s : State) {op : Op} {place : Nat}
    {back : CheckedOutPin1 → PinSafetyCache → PinSafetyCache}
    (hnone : handed s op = none) (hinv : invalidates hmac s op = false)
    (hstep : step hmac s op = s.giveBack place back)
    (hback : ∀ co, back co s.cache = s.cache ∨
      ((op = .restoreAfterUnanswered place ∨
        (op = .restoreAfterSuccess place ∧ co.entry.retention ≠ .oneShot)) ∧
        co.entry.generation = s.cache.generation ∧ s.cache.heldPin1 = none ∧
        back co s.cache = { s.cache with heldPin1 := some co.entry })) :
    Change hmac s op (step hmac s op) := by
  rw [hstep]
  unfold State.giveBack
  cases hplace : s.inFlight[place]? with
  | none => exact .quiet hnone hinv rfl (List.Sublist.refl _)
  | some co =>
    obtain hsame | ⟨hop, hgen, hheld, hput⟩ := hback co
    · exact .quiet hnone hinv hsame (List.eraseIdx_sublist _ _)
    · exact .restored co place hop hinv hplace hgen hheld hput rfl

/-- **Every operation does one of them.** -/
theorem step_cases (s : State) (op : Op) : Change hmac s op (step hmac s op) := by
  cases op with
  | storePin1 serial pin => exact change_hold hmac s (.inl rfl) rfl
  | stagePin1Once serial pin => exact change_hold hmac s (.inr rfl) rfl
  | checkoutPin1 serial status => exact change_checkout hmac s serial status
  | restoreAfterSuccess place =>
    refine change_giveBack hmac s rfl rfl rfl fun co => ?_
    unfold CheckedOutPin1.restoreAfterSuccess
    by_cases hone : co.entry.retention = .oneShot
    · exact .inl (if_pos hone)
    · rw [if_neg hone]
      exact (restore_cases co s.cache).imp_right fun h => ⟨.inr ⟨rfl, hone⟩, h⟩
  | restoreAfterUnanswered place =>
    refine change_giveBack hmac s rfl rfl rfl fun co => ?_
    exact (restore_cases co s.cache).imp_right fun h => ⟨.inl rfl, h⟩
  | dropCheckout place =>
    have hstep : step hmac s (.dropCheckout place) = s.giveBack place fun _ c => c := rfl
    exact change_giveBack hmac s rfl rfl hstep fun _ => .inl rfl
  | clearPositive => exact .cleared rfl rfl rfl rfl rfl (remembers_clearPositive s.cache)
  | recordRejected serial slot pin =>
    obtain ⟨hheld, hgen⟩ := recordRejected_clears hmac s.cache serial slot pin
    exact .cleared rfl rfl hheld hgen rfl (remembers_recordRejected hmac s.cache serial slot pin)
  | hasPositivePin1 => exact .quiet rfl rfl rfl (List.Sublist.refl _)
  | isRejected serial slot pin => exact .quiet rfl rfl rfl (List.Sublist.refl _)

/-! ## §4. The invariant -/

/-- **The invariant** after `n` invalidations: the counter has counted them, so a copy from
    before the last one is not of the current generation; of that generation there is one
    copy at most, and it was never refused. -/
structure Inv (n : Nat) (s : State) : Prop where
  count : s.cache.generation.toNat = n
  held : ∀ e, s.cache.heldPin1 = some e → e.generation = s.cache.generation
  past : ∀ e ∈ copies s, e.generation.toNat ≤ n
  single : liveCopies s ≤ 1
  clean : ∀ e ∈ copies s, e.generation = s.cache.generation →
    s.cache.isRejected hmac e.serial .pin1 e.pin = false

theorem inv_fresh (fingerprintKey : Bytes) : Inv hmac 0 (fresh fingerprintKey) where
  count := rfl
  held e h := by cases h
  past e h := by cases h
  single := by
    show 0 ≤ 1
    decide
  clean e h := by cases h

theorem toNat_succ {g : UInt64} (h : g.toNat + 1 < 2 ^ 64) : (g + 1).toNat = g.toNat + 1 := by
  rw [UInt64.toNat_add, UInt64.toNat_one, Nat.mod_eq_of_lt h]

/-- After an invalidation no earlier copy is of the current generation. -/
theorem Inv.stale {n : Nat} {s : State} (h : Inv hmac n s) (hn : n + 1 < 2 ^ 64) :
    ∀ e ∈ copies s, e.generation ≠ s.cache.generation + 1 := by
  intro e he heq
  have hle : e.generation.toNat ≤ n := h.past e he
  rw [heq, toNat_succ (by rw [h.count]; exact hn), h.count] at hle
  omega

theorem countP_stale {l : List HeldPin1} {g : UInt64} (h : ∀ e ∈ l, e.generation ≠ g) :
    l.countP (·.generation == g) = 0 := by
  rw [List.countP_eq_zero]
  intro e he
  simpa using h e he

theorem mem_copies_of_flight {s : State} {e : HeldPin1} (h : e ∈ s.inFlight.map (·.entry)) :
    e ∈ copies s := List.mem_append_right _ h

/-- A checkout that comes back changes places only. -/
theorem copies_restored {s s' : State} {co : CheckedOutPin1} {place : Nat}
    (hplace : s.inFlight[place]? = some co) (hnone : s.cache.heldPin1 = none)
    (hcache : s'.cache = { s.cache with heldPin1 := some co.entry })
    (hflight : s'.inFlight = s.inFlight.eraseIdx place) : (copies s').Perm (copies s) := by
  obtain ⟨hlt, hget⟩ := List.getElem?_eq_some_iff.mp hplace
  have hperm : (co :: s.inFlight.eraseIdx place).Perm s.inFlight := by
    rw [← hget]
    exact List.getElem_cons_eraseIdx_perm hlt
  have hmap := hperm.map (·.entry)
  simpa [copies, hnone, hcache, hflight] using hmap

theorem inv_quiet {n : Nat} {s s' : State} (h : Inv hmac n s) (hcache : s'.cache = s.cache)
    (hflight : s'.inFlight.Sublist s.inFlight) : Inv hmac n s' := by
  have hsub : (copies s').Sublist (copies s) := by
    unfold copies
    rw [hcache]
    exact (hflight.map _).append_left _
  constructor
  · rw [hcache]
    exact h.count
  · rw [hcache]
    exact h.held
  · exact fun e he => h.past e (hsub.subset he)
  · unfold liveCopies
    rw [hcache]
    exact (hsub.countP_le).trans h.single
  · rw [hcache]
    exact fun e he => h.clean e (hsub.subset he)

theorem inv_cleared {n : Nat} {s s' : State} (h : Inv hmac n s) (hn : n + 1 < 2 ^ 64)
    (hheld : s'.cache.heldPin1 = none) (hgen : s'.cache.generation = s.cache.generation + 1)
    (hflight : s'.inFlight = s.inFlight) : Inv hmac (n + 1) s' := by
  have hcopies : copies s' = s.inFlight.map (·.entry) := by
    simp [copies, hheld, hflight]
  have hstale : ∀ e ∈ copies s', e.generation ≠ s'.cache.generation := by
    rw [hcopies, hgen]
    exact fun e he => h.stale hmac hn e (mem_copies_of_flight he)
  constructor
  · rw [hgen, toNat_succ (by rw [h.count]; exact hn), h.count]
  · rw [hheld]
    exact fun e he => by cases he
  · rw [hcopies]
    exact fun e he => (h.past e (mem_copies_of_flight he)).trans (Nat.le_succ n)
  · unfold liveCopies
    rw [countP_stale hstale]
    decide
  · exact fun e he heq => absurd heq (hstale e he)

theorem inv_stored {n : Nat} {s s' : State} {serial : TokenSerial} {pin : PinBytes}
    {retention : Pin1Retention} (h : Inv hmac n s) (hn : n + 1 < 2 ^ 64)
    (hclean : s.cache.isRejected hmac serial .pin1 pin = false)
    (hcache : s'.cache = { s.cache.clearPositive with
      heldPin1 := some ⟨serial, pin, s.cache.generation + 1, retention⟩ })
    (hflight : s'.inFlight = s.inFlight) : Inv hmac (n + 1) s' := by
  have hgen : s'.cache.generation = s.cache.generation + 1 := by rw [hcache]; rfl
  have hcopies : copies s' = ⟨serial, pin, s.cache.generation + 1, retention⟩ ::
      s.inFlight.map (·.entry) := by
    simp [copies, hcache, hflight]
  have hstale : ∀ e ∈ s.inFlight.map (·.entry), e.generation ≠ s.cache.generation + 1 :=
    fun e he => h.stale hmac hn e (mem_copies_of_flight he)
  have hcount : s'.cache.generation.toNat = n + 1 := by
    rw [hgen, toNat_succ (by rw [h.count]; exact hn), h.count]
  constructor
  · exact hcount
  · intro e he
    rw [hcache] at he
    injection he with he
    rw [← he, hgen]
  · rw [hcopies]
    intro e he
    rcases List.mem_cons.mp he with rfl | he
    · rw [← hcount, hgen]
    · exact (h.past e (mem_copies_of_flight he)).trans (Nat.le_succ n)
  · unfold liveCopies
    rw [hcopies, hgen, List.countP_cons, countP_stale hstale]
    simp
  · rw [hcopies, hgen]
    intro e he heq
    rcases List.mem_cons.mp he with rfl | he
    · rw [hcache]
      exact hclean
    · exact absurd heq (hstale e he)

theorem inv_perm {n : Nat} {s s' : State} (h : Inv hmac n s)
    (hperm : (copies s').Perm (copies s)) (hgen : s'.cache.generation = s.cache.generation)
    (hheld : ∀ e, s'.cache.heldPin1 = some e → e.generation = s.cache.generation)
    (hrej : ∀ serial pin, s'.cache.isRejected hmac serial .pin1 pin
      = s.cache.isRejected hmac serial .pin1 pin) : Inv hmac n s' := by
  constructor
  · rw [hgen]
    exact h.count
  · rw [hgen]
    exact hheld
  · exact fun e he => h.past e (hperm.mem_iff.mp he)
  · unfold liveCopies
    rw [hperm.countP_eq, hgen]
    exact h.single
  · rw [hgen]
    intro e he heq
    rw [hrej]
    exact h.clean e (hperm.mem_iff.mp he) heq

/-- **One operation keeps the invariant**, while the counter has room. -/
theorem inv_step {n : Nat} {s : State} {op : Op} (h : Inv hmac n s)
    (hn : n + (invalidates hmac s op).toNat < 2 ^ 64) :
    Inv hmac (n + (invalidates hmac s op).toNat) (step hmac s op) := by
  cases step_cases hmac s op with
  | quiet _ hinv hcache hflight =>
    rw [hinv] at hn ⊢
    exact inv_quiet hmac h hcache hflight
  | cleared _ hinv hheld hgen hflight _ =>
    rw [hinv] at hn ⊢
    exact inv_cleared hmac h hn hheld hgen hflight
  | stored serial pin retention _ hinv hclean hcache hflight =>
    rw [hinv] at hn ⊢
    exact inv_stored hmac h hn hclean hcache hflight
  | taken entry serial status _ _ hinv hheld hcache hflight =>
    rw [hinv] at hn ⊢
    refine inv_perm hmac h ?_ (by rw [hcache]) ?_ ?_
    · rw [show copies (step hmac s op) = copies s by simp [copies, hheld, hcache, hflight]]
    · rw [hcache]
      exact fun e he => by cases he
    · rw [hcache]
      exact fun _ _ => rfl
  | restored co place _ hinv hplace hgen hnone hcache hflight =>
    rw [hinv] at hn ⊢
    refine inv_perm hmac h (copies_restored hplace hnone hcache hflight) (by rw [hcache]) ?_ ?_
    · rw [hcache]
      intro e he
      injection he with he
      rw [← he, hgen]
    · rw [hcache]
      exact fun _ _ => rfl

/-- **Every run keeps it.** -/
theorem inv_run {n : Nat} {s : State} (ops : List Op) (h : Inv hmac n s)
    (hn : n + invalidations hmac s ops < 2 ^ 64) :
    Inv hmac (n + invalidations hmac s ops) (run hmac s ops) := by
  induction ops generalizing n s with
  | nil => exact h
  | cons op ops ih =>
    simp only [invalidations] at hn ⊢
    rw [← Nat.add_assoc] at hn ⊢
    exact ih (inv_step hmac h (by omega)) hn

theorem remembers_step (s : State) (op : Op) : Remembers s.cache (step hmac s op).cache := by
  cases step_cases hmac s op with
  | quiet _ _ hcache _ =>
    rw [hcache]
    exact remembers_refl _
  | cleared _ _ _ _ _ hmemory => exact hmemory
  | stored _ _ _ _ _ _ hcache _ =>
    rw [hcache]
    exact remembers_clearPositive s.cache
  | taken _ _ _ _ _ _ _ hcache _ =>
    rw [hcache]
    exact remembers_refl _
  | restored _ _ _ _ _ _ _ hcache _ =>
    rw [hcache]
    exact remembers_refl _

/-- **No refusal is ever forgotten.** -/
theorem remembers_run (s : State) (ops : List Op) : Remembers s.cache (run hmac s ops).cache := by
  induction ops generalizing s with
  | nil => exact remembers_refl _
  | cons op ops ih => exact (remembers_step hmac s op).trans (ih (step hmac s op))

theorem run_append (s : State) (pre post : List Op) :
    run hmac s (pre ++ post) = run hmac (run hmac s pre) post := List.foldl_append

theorem invalidations_append (s : State) (pre post : List Op) :
    invalidations hmac s (pre ++ post)
      = invalidations hmac s pre + invalidations hmac (run hmac s pre) post := by
  induction pre generalizing s with
  | nil => simp [invalidations, run]
  | cons op pre ih =>
    simp only [List.cons_append, invalidations, ih, Nat.add_assoc]
    rfl

/-- A checkout hands out what was held, for the card it was held for. -/
theorem checkoutPin1_some {c : PinSafetyCache} {serial : TokenSerial} {status : PinStatus}
    {co : CheckedOutPin1} (h : (c.checkoutPin1 serial status).2 = some co) :
    c.heldPin1 = some co.entry ∧ co.entry.serial = serial := by
  unfold PinSafetyCache.checkoutPin1 at h
  cases hheld : c.heldPin1 with
  | none => simp [hheld] at h
  | some entry =>
    simp only [hheld] at h
    split at h
    next hfits =>
      injection h with h
      subst h
      exact ⟨rfl, hfits.1⟩
    · cases h

/-- What a checkout hands out is not known as refused. -/
theorem Inv.checkout_clean {n : Nat} {s : State} (h : Inv hmac n s) {serial : TokenSerial}
    {status : PinStatus} {co : CheckedOutPin1}
    (hco : (s.cache.checkoutPin1 serial status).2 = some co) :
    s.cache.isRejected hmac serial .pin1 co.entry.pin = false := by
  obtain ⟨hheld, hserial⟩ := checkoutPin1_some hco
  have hmem : co.entry ∈ copies s := by simp [copies, hheld]
  rw [← hserial]
  exact h.clean _ hmem (h.held _ hheld)

/-- A checkout of an earlier generation changes nothing when it comes back. -/
theorem restore_stale {co : CheckedOutPin1} {c : PinSafetyCache}
    (h : co.entry.generation ≠ c.generation) :
    co.restoreAfterUnanswered c = c ∧ co.restoreAfterSuccess c = c := by
  have hrestore : co.restore c = c := if_pos (.inl fun heq => h heq.symm)
  refine ⟨hrestore, ?_⟩
  unfold CheckedOutPin1.restoreAfterSuccess
  split
  · rfl
  · exact hrestore

theorem stale_of_invalidated {n : Nat} {s : State} (h : Inv hmac n s) {post : List Op}
    (hn : n + invalidations hmac s post < 2 ^ 64) (hinv : 0 < invalidations hmac s post)
    {co : CheckedOutPin1} (hco : co ∈ s.inFlight) :
    co.entry.generation ≠ (run hmac s post).cache.generation := by
  intro heq
  have hpast : co.entry.generation.toNat ≤ n :=
    h.past _ (mem_copies_of_flight (List.mem_map_of_mem hco))
  have hcount := (inv_run hmac post h hn).count
  rw [heq, hcount] at hpast
  omega

/-! ## §5. Refusals, copies and checkouts over whole runs -/

/-- **The cache is safe over every run** from an empty cache: a PIN 1 the card refused is
    never handed out again for that card; of the current generation there is one copy at
    most, held or checked out; and a checkout taken before an invalidation never puts its
    PIN back, however the exchange ended. -/
theorem pinCache_safety (fingerprintKey : Bytes) (ops : List Op)
    (hcount : invalidations hmac (fresh fingerprintKey) ops < 2 ^ 64) :
    (∀ pre serial pin post, ops = pre ++ Op.recordRejected serial .pin1 pin :: post →
      ∀ status co, ((run hmac (fresh fingerprintKey) ops).cache.checkoutPin1 serial status).2
        = some co → co.entry.pin ≠ pin) ∧
    liveCopies (run hmac (fresh fingerprintKey) ops) ≤ 1 ∧
    (∀ pre post, ops = pre ++ post →
      0 < invalidations hmac (run hmac (fresh fingerprintKey) pre) post →
      ∀ co ∈ (run hmac (fresh fingerprintKey) pre).inFlight,
        co.restoreAfterUnanswered (run hmac (fresh fingerprintKey) ops).cache
            = (run hmac (fresh fingerprintKey) ops).cache ∧
          co.restoreAfterSuccess (run hmac (fresh fingerprintKey) ops).cache
            = (run hmac (fresh fingerprintKey) ops).cache) := by
  have hinit : Inv hmac 0 (fresh fingerprintKey) := inv_fresh hmac fingerprintKey
  have hend := inv_run hmac ops hinit (by rwa [Nat.zero_add])
  refine ⟨?_, hend.single, ?_⟩
  · intro pre serial pin post hops status co hco hpin
    -- the refusal is still known at the end, and what is handed out is not refused
    have hknown : (run hmac (fresh fingerprintKey) ops).cache.isRejected hmac serial .pin1 pin := by
      rw [hops, run_append]
      exact (remembers_run hmac _ post).isRejected hmac
        (recordRejected_isRejected hmac _ serial .pin1 pin)
    have hclean := hend.checkout_clean hmac hco
    rw [hpin, hknown] at hclean
    cases hclean
  · intro pre post hops hinv co hco
    rw [hops, invalidations_append] at hcount
    have hpre := inv_run hmac pre hinit (by omega)
    rw [Nat.zero_add] at hpre
    rw [hops, run_append]
    exact restore_stale (stale_of_invalidated hmac hpre hcount hinv hco)

/-- The card and the PIN of the repository's tests. -/
def sampleSerial : TokenSerial :=
  ⟨[0x43, 0x41, 0x52, 0x44, 0x2D, 0x41, 0x2D, 0x46, 0x55, 0x4C, 0x4C, 0x2D, 0x53, 0x45, 0x52,
    0x49, 0x41, 0x4C]⟩

def samplePin : PinBytes := ⟨[0x31, 0x33, 0x35, 0x37], by decide, by decide, by decide⟩

/-- HMAC-SHA-256 at the message of that card and PIN, under the tests' key; elsewhere the
    message stands for its own mark. -/
def sampleHmac (_key message : Bytes) : Bytes :=
  if message = u32ToBeBytes 18 ++ sampleSerial.utf8 ++ [0x01, 0x04] ++ samplePin.bytes then
    [0xF2, 0xFB, 0xEF, 0x0C, 0x29, 0x05, 0xEC, 0x97, 0x93, 0x39, 0x3E, 0x1B, 0x73, 0x20, 0xDA, 0xA0,
     0xD3, 0xCA, 0x4B, 0x63, 0x19, 0xE6, 0x3C, 0xCE, 0x7C, 0x55, 0x21, 0xA3, 0x54, 0xAC, 0x74, 0x66]
  else message

/-- `synthetic PIN fingerprint key 32`. -/
def sampleKey : Bytes :=
  [0x73, 0x79, 0x6E, 0x74, 0x68, 0x65, 0x74, 0x69, 0x63, 0x20, 0x50, 0x49, 0x4E, 0x20, 0x66, 0x69,
   0x6E, 0x67, 0x65, 0x72, 0x70, 0x72, 0x69, 0x6E, 0x74, 0x20, 0x6B, 0x65, 0x79, 0x20, 0x33, 0x32]

/-- Held, checked out, refused by the card while in flight, offered again and given back. -/
def refusedRun : List Op :=
  [.storePin1 sampleSerial samplePin, .checkoutPin1 sampleSerial (.remaining 5),
   .recordRejected sampleSerial .pin1 samplePin, .storePin1 sampleSerial samplePin,
   .restoreAfterUnanswered 0]

theorem refusedRun_safe :
    invalidations sampleHmac (fresh sampleKey) refusedRun < 2 ^ 64 ∧
      (∀ status co, ((run sampleHmac (fresh sampleKey) refusedRun).cache.checkoutPin1
        sampleSerial status).2 = some co → co.entry.pin ≠ samplePin) ∧
      liveCopies (run sampleHmac (fresh sampleKey) refusedRun) ≤ 1 := by
  have hcount : invalidations sampleHmac (fresh sampleKey) refusedRun < 2 ^ 64 := by
    decide
  obtain ⟨hrefused, hsingle, -⟩ := pinCache_safety sampleHmac sampleKey refusedRun hcount
  refine ⟨hcount, hrefused [.storePin1 sampleSerial samplePin,
    .checkoutPin1 sampleSerial (.remaining 5)] sampleSerial samplePin
    [.storePin1 sampleSerial samplePin, .restoreAfterUnanswered 0] rfl, hsingle⟩

/-! ## §6. A PIN staged once -/

/-- The operation does not put a staged checkout of `pin` back: a restore after an
    unanswered exchange is of another PIN or of one that is not one-shot, or comes too late. -/
def KeepsOnce (pin : PinBytes) (s : State) (op : Op) : Prop :=
  ∀ place co, op = .restoreAfterUnanswered place → s.inFlight[place]? = some co →
    co.entry.pin = pin → co.entry.retention = .oneShot →
      co.entry.generation ≠ s.cache.generation ∨ s.cache.heldPin1.isSome

/-- Every operation of a run does so. -/
def RunKeepsOnce (pin : PinBytes) (s : State) : List Op → Prop
  | [] => True
  | op :: ops => KeepsOnce pin s op ∧ RunKeepsOnce pin (step hmac s op) ops

/-- The operation offers `pin` to the cache. -/
def Offers (pin : PinBytes) (op : Op) : Prop :=
  ∃ serial, op = .storePin1 serial pin ∨ op = .stagePin1Once serial pin

/-- Every copy of `pin` of the current generation is one-shot. -/
def OnceOnly (pin : PinBytes) (s : State) : Prop :=
  ∀ e ∈ copies s, e.pin = pin → e.generation = s.cache.generation → e.retention = .oneShot

/-- How often `pin` can still be handed out without another offer. -/
def budget (pin : PinBytes) (s : State) : Nat :=
  s.cache.heldPin1.toList.countP fun e => decide (e.pin = pin)

theorem budget_none {pin : PinBytes} {s : State} (h : s.cache.heldPin1 = none) :
    budget pin s = 0 := by
  simp [budget, h]

theorem budget_some {pin : PinBytes} {s : State} {e : HeldPin1}
    (h : s.cache.heldPin1 = some e) : budget pin s = if e.pin = pin then 1 else 0 := by
  simp [budget, h, List.countP_cons]

/-- **One operation** that offers no `pin` and puts no staged checkout back: what it hands
    out of `pin` comes off the budget, and the copies left are one-shot still. -/
theorem onceOnly_step {n : Nat} {s : State} {op : Op} {pin : PinBytes} (h : Inv hmac n s)
    (hn : n + (invalidates hmac s op).toNat < 2 ^ 64) (honce : OnceOnly pin s)
    (hoffer : ¬ Offers pin op) (hkeep : KeepsOnce pin s op) :
    OnceOnly pin (step hmac s op) ∧
      ((handed s op).toList.countP fun co => decide (co.entry.pin = pin))
        + budget pin (step hmac s op) ≤ budget pin s := by
  cases step_cases hmac s op with
  | quiet hop _ hcache hflight =>
    refine ⟨fun e he hpin hgen => ?_, ?_⟩
    · rw [hcache] at hgen
      refine honce e ?_ hpin hgen
      unfold copies at he ⊢
      rw [hcache] at he
      exact (((hflight.map _).append_left _).subset) he
    · simp [hop, budget, hcache]
  | cleared hop hinv hheld hgen hflight _ =>
    rw [hinv] at hn
    refine ⟨fun e he hpin hcur => ?_, by simp [hop, budget_none hheld]⟩
    have hmem : e ∈ copies s := by
      simp only [copies, hheld, hflight, Option.toList_none, List.nil_append] at he
      exact mem_copies_of_flight he
    rw [hgen] at hcur
    exact absurd hcur (h.stale hmac hn e hmem)
  | stored serial pin' retention hop hinv _ hcache hflight =>
    rw [hinv] at hn
    have hne : pin' ≠ pin := by
      rintro rfl
      exact hoffer ⟨serial, hop⟩
    have hgen : (step hmac s op).cache.generation = s.cache.generation + 1 := by
      rw [hcache]
      rfl
    have hheld : (step hmac s op).cache.heldPin1
        = some ⟨serial, pin', s.cache.generation + 1, retention⟩ := by rw [hcache]
    have hhanded : handed s op = none := by rcases hop with rfl | rfl <;> rfl
    refine ⟨fun e he hpin hcur => ?_, by simp [hhanded, budget_some hheld, hne]⟩
    simp only [copies, hheld, hflight, Option.toList_some, List.singleton_append,
      List.mem_cons] at he
    rcases he with rfl | he
    · exact absurd hpin hne
    · rw [hgen] at hcur
      exact absurd hcur (h.stale hmac hn e (mem_copies_of_flight he))
  | taken entry serial status _ hhanded _ hheld hcache hflight =>
    have hcopies : copies (step hmac s op) = copies s := by
      simp [copies, hheld, hcache, hflight]
    refine ⟨fun e he hpin hcur => ?_, ?_⟩
    · rw [hcopies] at he
      rw [hcache] at hcur
      exact honce e he hpin hcur
    · rw [hhanded, budget_some hheld, budget_none (by rw [hcache])]
      simp [List.countP_cons]
  | restored co place hop _ hplace hgen hnone hcache hflight =>
    have hmem : co.entry ∈ copies s :=
      mem_copies_of_flight (List.mem_map_of_mem (List.mem_of_getElem? hplace))
    have hhanded : handed s op = none := by rcases hop with rfl | ⟨rfl, -⟩ <;> rfl
    -- a staged copy of `pin` cannot come back on either path
    have hne : co.entry.pin ≠ pin := by
      intro hpin
      have hone : co.entry.retention = .oneShot := honce _ hmem hpin hgen
      rcases hop with hop | ⟨-, hreuse⟩
      · rcases hkeep place co hop hplace hpin hone with hstale | hsome
        · exact hstale hgen
        · rw [hnone] at hsome
          cases hsome
      · exact hreuse hone
    have hheld : (step hmac s op).cache.heldPin1 = some co.entry := by rw [hcache]
    refine ⟨fun e he hpin hcur => ?_, by simp [hhanded, budget_some hheld, hne]⟩
    rw [hcache] at hcur
    exact honce e ((copies_restored hplace hnone hcache hflight).mem_iff.mp he) hpin hcur

/-- **A run** hands out `pin` at most as often as the budget says. -/
theorem handedOut_le_budget {n : Nat} {s : State} {pin : PinBytes} (ops : List Op)
    (h : Inv hmac n s) (hn : n + invalidations hmac s ops < 2 ^ 64) (honce : OnceOnly pin s)
    (hoffer : ∀ op ∈ ops, ¬ Offers pin op) (hkeep : RunKeepsOnce hmac pin s ops) :
    ((handedOut hmac s ops).countP fun co => decide (co.entry.pin = pin)) ≤ budget pin s := by
  induction ops generalizing n s with
  | nil => exact Nat.zero_le _
  | cons op ops ih =>
    simp only [invalidations] at hn
    rw [← Nat.add_assoc] at hn
    obtain ⟨honce', hbudget⟩ := onceOnly_step hmac h (by omega) honce
      (hoffer op List.mem_cons_self) hkeep.1
    have hrest := ih (inv_step hmac h (by omega)) hn honce'
      (fun op' hop' => hoffer op' (List.mem_cons_of_mem _ hop')) hkeep.2
    simp only [handedOut, List.countP_append]
    omega

theorem stagePin1Once_ok {c : PinSafetyCache} {serial : TokenSerial} {pin : PinBytes}
    (h : (c.stagePin1Once hmac serial pin).2 = .ok ()) :
    c.isRejected hmac serial .pin1 pin = false ∧
      (c.stagePin1Once hmac serial pin).1 = { c.clearPositive with
        heldPin1 := some ⟨serial, pin, c.generation + 1, .oneShot⟩ } := by
  unfold PinSafetyCache.stagePin1Once PinSafetyCache.holdPin1 at h ⊢
  by_cases hrej : c.isRejected hmac serial .pin1 pin = true
  · rw [if_pos hrej] at h
    cases h
  · rw [if_neg hrej]
    exact ⟨Bool.eq_false_iff.mpr hrej, rfl⟩

/-- Right after the staging there is one copy of `pin` in reach, and it is one-shot. -/
theorem onceOnly_staged {n : Nat} {s : State} {serial : TokenSerial} {pin : PinBytes}
    (h : Inv hmac n s) (hn : n + 1 < 2 ^ 64)
    (hstaged : (s.cache.stagePin1Once hmac serial pin).2 = .ok ()) :
    OnceOnly pin (step hmac s (.stagePin1Once serial pin)) ∧
      budget pin (step hmac s (.stagePin1Once serial pin)) = 1 := by
  have hcache : (step hmac s (.stagePin1Once serial pin)).cache = { s.cache.clearPositive with
      heldPin1 := some ⟨serial, pin, s.cache.generation + 1, .oneShot⟩ } :=
    (stagePin1Once_ok hmac hstaged).2
  have hheld : (step hmac s (.stagePin1Once serial pin)).cache.heldPin1
      = some ⟨serial, pin, s.cache.generation + 1, .oneShot⟩ := by rw [hcache]
  refine ⟨fun e he _ hcur => ?_, by simp [budget_some hheld]⟩
  simp only [copies, hheld, Option.toList_some, List.singleton_append, List.mem_cons] at he
  rcases he with rfl | he
  · rfl
  · rw [hcache] at hcur
    exact absurd hcur (h.stale hmac hn e (mem_copies_of_flight he))

/-- **A PIN staged once is handed out once**, in every run that does not offer it again and
    puts no staged checkout of it back after an unanswered exchange. -/
theorem stagePin1Once_handed (fingerprintKey : Bytes) (pre post : List Op) (serial : TokenSerial)
    (pin : PinBytes)
    (hstaged : ((run hmac (fresh fingerprintKey) pre).cache.stagePin1Once hmac serial pin).2
      = .ok ())
    (hoffer : ∀ op ∈ post, ¬ Offers pin op)
    (hkeep : RunKeepsOnce hmac pin
      (run hmac (fresh fingerprintKey) (pre ++ [.stagePin1Once serial pin])) post)
    (hcount : invalidations hmac (fresh fingerprintKey) (pre ++ .stagePin1Once serial pin :: post)
      < 2 ^ 64) :
    ((handedOut hmac (run hmac (fresh fingerprintKey) (pre ++ [.stagePin1Once serial pin]))
      post).countP fun co => decide (co.entry.pin = pin)) ≤ 1 := by
  have hsplit : run hmac (fresh fingerprintKey) (pre ++ [.stagePin1Once serial pin])
      = step hmac (run hmac (fresh fingerprintKey) pre) (.stagePin1Once serial pin) := by
    rw [run_append]
    rfl
  have hinv : invalidates hmac (run hmac (fresh fingerprintKey) pre) (.stagePin1Once serial pin)
      = true := by
    simp [invalidates, (stagePin1Once_ok hmac hstaged).1]
  rw [invalidations_append] at hcount
  simp only [invalidations, hinv, Bool.toNat_true] at hcount
  have hpre := inv_run hmac pre (inv_fresh hmac fingerprintKey) (by omega)
  rw [Nat.zero_add] at hpre
  obtain ⟨honce, hbudget⟩ := onceOnly_staged hmac hpre (by omega) hstaged
  have hstep := inv_step hmac hpre (by rw [hinv, Bool.toNat_true]; omega)
  rw [hinv, Bool.toNat_true] at hstep
  rw [hsplit] at hkeep ⊢
  rw [← hbudget]
  exact handedOut_le_budget hmac post hstep (by omega) honce hoffer hkeep

/-- Staged, used, and the second use finds nothing. -/
theorem stagedTwice_refused :
    RunKeepsOnce sampleHmac samplePin
        (run sampleHmac (fresh sampleKey) ([] ++ [.stagePin1Once sampleSerial samplePin]))
        [.checkoutPin1 sampleSerial .verified, .restoreAfterSuccess 0,
          .checkoutPin1 sampleSerial .verified] ∧
      ((handedOut sampleHmac
        (run sampleHmac (fresh sampleKey) ([] ++ [.stagePin1Once sampleSerial samplePin]))
        [.checkoutPin1 sampleSerial .verified, .restoreAfterSuccess 0,
          .checkoutPin1 sampleSerial .verified]).countP
        fun co => decide (co.entry.pin = samplePin)) ≤ 1 := by
  have hkeep : RunKeepsOnce sampleHmac samplePin
      (run sampleHmac (fresh sampleKey) ([] ++ [.stagePin1Once sampleSerial samplePin]))
      [.checkoutPin1 sampleSerial .verified, .restoreAfterSuccess 0,
        .checkoutPin1 sampleSerial .verified] :=
    ⟨fun _ _ h => (by cases h), fun _ _ h => (by cases h), fun _ _ h => (by cases h), trivial⟩
  refine ⟨hkeep, stagePin1Once_handed sampleHmac sampleKey [] _ sampleSerial samplePin
    (by decide) ?_ hkeep (by decide)⟩
  intro op hop ⟨serial, hoffer⟩
  simp only [List.mem_cons, List.not_mem_nil, or_false] at hop
  rcases hop with rfl | rfl | rfl <;> rcases hoffer with h | h <;> cases h

/-- Staged once, the answer lost, and handed out twice. -/
theorem staged_handed_twice :
    ¬ ((handedOut sampleHmac
        (run sampleHmac (fresh sampleKey) [.stagePin1Once sampleSerial samplePin])
        [.checkoutPin1 sampleSerial .verified, .restoreAfterUnanswered 0,
          .checkoutPin1 sampleSerial .verified]).countP
        fun co => decide (co.entry.pin = samplePin)) ≤ 1 := by
  decide

end

end PinCache

end RefineId
