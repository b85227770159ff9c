/-
  RefineId.Transport — commands, answers and what a transport reports.
  ════════════════════════════════════════════════════════════════════════════

  `crates/refineid-lib-core/src/transport.rs`: the boundary between the card protocol and
  whatever moves its octets.  A command remembers whether its `Le` may be corrected once;
  only the typed builders of short read-only commands set that, and a corrected command
  has lost it.

  Main results:
    • `correctedWrongLe_once` : a corrected command is never corrected again.
-/
import RefineId.Ber

namespace RefineId

/-- `CommandApdu`. -/
structure CommandApdu where
  bytes : Bytes
  wrongLeRetry : Bool
  deriving Repr, DecidableEq

/-- `CommandApdu::new`. -/
def CommandApdu.new (bytes : Bytes) : CommandApdu := ⟨bytes, false⟩

/-- `CommandApdu::allow_wrong_le_retry`: for a header and `Le` only. -/
def CommandApdu.allowWrongLeRetry (apdu : CommandApdu) : CommandApdu :=
  { apdu with wrongLeRetry := apdu.bytes.length == 5 }

/-- `CommandApdu::corrected_wrong_le`: the last octet replaced, and the flag spent. -/
def CommandApdu.correctedWrongLe (apdu : CommandApdu) (le : UInt8) : Option CommandApdu :=
  if apdu.wrongLeRetry then
    match apdu.bytes with
    | [] => none
    | _ :: _ => some ⟨apdu.bytes.dropLast ++ [le], false⟩
  else none

/-- `ResponseApdu`. -/
structure ResponseApdu where
  body : Bytes
  sw1 : UInt8
  sw2 : UInt8
  deriving Repr, DecidableEq

/-- `ResponseApdu::sw`. -/
def ResponseApdu.sw (r : ResponseApdu) : Nat := r.sw1.toNat * 256 + r.sw2.toNat

/-- `ResponseApdu::is_ok`. -/
def ResponseApdu.isOk (r : ResponseApdu) : Bool := r.sw = 0x9000

theorem isOk_success (body : Bytes) : ResponseApdu.isOk ⟨body, 0x90, 0x00⟩ = true := by
  have hsw : (0x90 : UInt8).toNat * 256 + (0x00 : UInt8).toNat = 0x9000 := by decide
  exact decide_eq_true hsw

/-- `TransportOutcome`. -/
inductive TransportOutcome where
  | response (r : ResponseApdu)
  | noCard
  | timeoutUnknownState
  | cardReset
  | protocolDesync
  | readerRemoved
  deriving Repr, DecidableEq

theorem sw_eq_success_iff (r : ResponseApdu) :
    r.sw = 0x9000 ↔ r.sw1 = 0x90 ∧ r.sw2 = 0x00 := by
  have h1 : r.sw1.toNat < 256 := r.sw1.toNat_lt
  have h2 : r.sw2.toNat < 256 := r.sw2.toNat_lt
  rw [← UInt8.toNat_inj, ← UInt8.toNat_inj]
  show r.sw1.toNat * 256 + r.sw2.toNat = 0x9000 ↔ r.sw1.toNat = 144 ∧ r.sw2.toNat = 0
  omega

/-- **A corrected command is never corrected again.** -/
theorem correctedWrongLe_once {apdu corrected : CommandApdu} {le : UInt8}
    (h : apdu.correctedWrongLe le = some corrected) (le' : UInt8) :
    corrected.correctedWrongLe le' = none := by
  unfold CommandApdu.correctedWrongLe at h
  split at h
  · cases hb : apdu.bytes with
    | nil => simp [hb] at h
    | cons b rest =>
      simp only [hb] at h
      injection h with h
      subst h
      rfl
  · simp at h

end RefineId
