/-
  RefineId.Lib.Counter — counting in octets.
  ════════════════════════════════════════════════════════════════════════════

  A counter kept as a string of octets is bumped by carrying: an octet at its maximum
  becomes zero and the carry goes on, the first other octet takes it.  Here the least
  significant octet comes first.

  Main results:
    • `value_bump` : the number goes up by one, modulo the counter's width.
    • `bump_ne`    : a bumped counter is not what it was.
-/
import Mathlib.Tactic

namespace RefineId.Lib.Counter

/-- The number, least significant octet first. -/
def value : List UInt8 → Nat
  | [] => 0
  | b :: rest => b.toNat + 256 * value rest

/-- One up, with rollover. -/
def bump : List UInt8 → List UInt8
  | [] => []
  | b :: rest => if b = 255 then 0 :: bump rest else (b + 1) :: rest

theorem length_bump (bs : List UInt8) : (bump bs).length = bs.length := by
  induction bs with
  | nil => rfl
  | cons b rest ih =>
    unfold bump
    split
    · simp [ih]
    · simp

theorem value_lt (bs : List UInt8) : value bs < 256 ^ bs.length := by
  induction bs with
  | nil => simp [value]
  | cons b rest ih =>
    have hb : b.toNat < 256 := b.toNat_lt
    simp only [value, List.length_cons, pow_succ]
    omega

/-- **The number goes up by one, modulo the width.** -/
theorem value_bump (bs : List UInt8) : value (bump bs) = (value bs + 1) % 256 ^ bs.length := by
  induction bs with
  | nil => simp [value, bump]
  | cons b rest ih =>
    have hlt : value rest < 256 ^ rest.length := value_lt rest
    have hb : b.toNat < 256 := b.toNat_lt
    have hwidth : 256 ^ (b :: rest).length = 256 * 256 ^ rest.length := by
      rw [List.length_cons, pow_succ, Nat.mul_comm]
    rw [hwidth]
    by_cases hmax : b = 255
    · -- the carry goes on
      have hstep : value (b :: rest) + 1 = 256 * (value rest + 1) := by
        subst hmax
        simp only [value, UInt8.reduceToNat]
        ring
      rw [hstep, Nat.mul_mod_mul_left, ← ih]
      simp [bump, hmax, value]
    · have hsmall : b.toNat + 1 < 256 := by
        have : b.toNat ≠ 255 := fun h => hmax (UInt8.toNat_inj.mp h)
        omega
      have hadd : (b + 1).toNat = b.toNat + 1 := by
        rw [UInt8.toNat_add, UInt8.toNat_one, Nat.mod_eq_of_lt hsmall]
      simp only [bump, if_neg hmax, value, hadd]
      rw [Nat.mod_eq_of_lt (by omega)]
      ring

theorem bump_ne {bs : List UInt8} (h : bs ≠ []) : bump bs ≠ bs := by
  intro heq
  have hlt : value bs < 256 ^ bs.length := value_lt bs
  have hval : value bs = (value bs + 1) % 256 ^ bs.length := by rw [← value_bump, heq]
  have hpos : 0 < bs.length := List.length_pos_iff.mpr h
  have hwide : 256 ^ 1 ≤ 256 ^ bs.length := Nat.pow_le_pow_right (by decide) hpos
  by_cases hroll : value bs + 1 = 256 ^ bs.length
  · rw [hroll, Nat.mod_self] at hval
    omega
  · rw [Nat.mod_eq_of_lt (by omega)] at hval
    omega

/-- Counters of one width are told apart by their numbers. -/
theorem value_injective {bs bs' : List UInt8} (hlen : bs.length = bs'.length)
    (h : value bs = value bs') : bs = bs' := by
  induction bs generalizing bs' with
  | nil => exact (List.length_eq_zero_iff.mp hlen.symm).symm
  | cons b rest ih =>
    obtain _ | ⟨b', rest'⟩ := bs'
    · exact absurd hlen (by simp)
    · have hb : b.toNat < 256 := b.toNat_lt
      have hb' : b'.toNat < 256 := b'.toNat_lt
      simp only [value] at h
      have hhead : b = b' := UInt8.toNat_inj.mp (by omega)
      have hrest : rest = rest' := ih (by simpa using hlen) (by omega)
      rw [hhead, hrest]

end RefineId.Lib.Counter
