/-
  RefineId.Lib.Pratt — certificates of primality.
  ════════════════════════════════════════════════════════════════════════════

  Lucas's test asks for the prime factors of `p - 1`, and these are certified the same way.
  A certificate is the list of all these steps, the small primes first, and is checked by
  evaluation: powers are taken by squaring, so a step costs a few hundred products.

  Main results:
    • `powMod_eq`          : squaring computes the power.
    • `Step.prime`         : a step that checks certifies its number.
    • `prime_of_certified` : so does every step of a certificate.
-/
import Mathlib.NumberTheory.LucasPrimality

namespace RefineId.Lib.Pratt

/-! ## §1. Powers -/

/-- `a ^ e % m`, from the highest of `bits` bits of `e` down. -/
def powMod (m a : Nat) : Nat → Nat → Nat
  | 0, _ => 1 % m
  | bits + 1, e =>
    let root := powMod m a bits (e / 2)
    if e % 2 = 0 then root * root % m else root * root % m * a % m

theorem powMod_eq (m a : Nat) {bits e : Nat} (h : e < 2 ^ bits) :
    powMod m a bits e = a ^ e % m := by
  induction bits generalizing e with
  | zero =>
    obtain rfl : e = 0 := by simpa using h
    rfl
  | succ bits ih =>
    have hroot : powMod m a bits (e / 2) = a ^ (e / 2) % m := by
      apply ih
      rw [pow_succ] at h
      omega
    have hsquare : a ^ (e / 2) % m * (a ^ (e / 2) % m) % m = a ^ (2 * (e / 2)) % m := by
      rw [← Nat.mul_mod, ← pow_add, Nat.two_mul]
    simp only [powMod, hroot, hsquare]
    split
    · next heven => rw [Nat.mul_div_cancel' (Nat.dvd_of_mod_eq_zero heven)]
    · next hodd =>
      have he : e = 2 * (e / 2) + 1 := by omega
      conv_rhs => rw [he, pow_succ]
      rw [Nat.mod_mul_mod]

/-! ## §2. Certificates -/

/-- Lucas's test of `p` with the base `a`; `factors` are the prime factors of `p - 1`, as
    often as they divide it. -/
structure Step where
  p : Nat
  a : Nat
  factors : List Nat

/-- The power of the base, in the bits that `p` has. -/
def Step.power (s : Step) (e : Nat) : Nat := powMod s.p s.a (Nat.log2 s.p + 1) e

/-- The test itself, its factors taken from the numbers `known` to be prime. -/
def Step.check (s : Step) (known : List Nat) : Bool :=
  2 ≤ s.p && s.factors.all (fun q => known.contains q) && s.factors.prod = s.p - 1 &&
    s.power (s.p - 1) = 1 && s.factors.all fun q => s.power ((s.p - 1) / q) ≠ 1

/-- Every step checks, with the numbers of the steps before it known. -/
def certified : List Step → List Nat → Bool
  | [], _ => true
  | s :: steps, known => s.check known && certified steps (s.p :: known)

theorem Step.power_eq_one {s : Step} (htwo : 2 ≤ s.p) {e : Nat} (he : e < s.p) :
    s.power e = 1 ↔ (s.a : ZMod s.p) ^ e = 1 := by
  have hbits : e < 2 ^ (Nat.log2 s.p + 1) := he.trans Nat.lt_log2_self
  have hcast : ((s.a ^ e : Nat) : ZMod s.p) = ((1 : Nat) : ZMod s.p) ↔ s.a ^ e % s.p = 1 := by
    rw [ZMod.natCast_eq_natCast_iff', Nat.one_mod_eq_one.mpr (by omega)]
  rw [Step.power, powMod_eq _ _ hbits, ← hcast, Nat.cast_pow, Nat.cast_one]

/-- **Lucas's test** certifies its number. -/
theorem Step.prime {s : Step} {known : List Nat} (hknown : ∀ q ∈ known, q.Prime)
    (h : s.check known = true) : s.p.Prime := by
  simp only [Step.check, Bool.and_eq_true, decide_eq_true_eq, List.all_eq_true,
    List.contains_iff_mem] at h
  obtain ⟨⟨⟨⟨htwo, hfactors⟩, hprod⟩, hfull⟩, hparts⟩ := h
  refine lucas_primality s.p (s.a : ZMod s.p) ((power_eq_one htwo (by omega)).mp hfull) ?_
  intro q hq hdvd hone
  -- a prime factor of the product is one of the factors
  rw [← hprod] at hdvd
  obtain ⟨r, hr, hqr⟩ := (Prime.dvd_prod_iff hq.prime).mp hdvd
  obtain rfl := (Nat.prime_dvd_prime_iff_eq hq (hknown r (hfactors r hr))).mp hqr
  have hlt : (s.p - 1) / q < s.p := lt_of_le_of_lt (Nat.div_le_self _ _) (by omega)
  exact hparts q hr ((power_eq_one htwo hlt).mpr hone)

theorem primes_of_certified {steps : List Step} {known : List Nat}
    (hknown : ∀ q ∈ known, q.Prime) (h : certified steps known = true) :
    ∀ s ∈ steps, s.p.Prime := by
  induction steps generalizing known with
  | nil => simp
  | cons first steps ih =>
    obtain ⟨hfirst, hrest⟩ := Bool.and_eq_true_iff.mp h
    have hprime := first.prime hknown hfirst
    intro s hs
    cases hs with
    | head => exact hprime
    | tail _ hs =>
      refine ih ?_ hrest s hs
      intro q hq
      cases hq with
      | head => exact hprime
      | tail _ hq => exact hknown q hq

/-- **A certificate**, from the prime two, certifies every number in it. -/
theorem prime_of_certified {steps : List Step} (h : certified steps [2] = true) {p : Nat}
    (hp : p ∈ steps.map Step.p) : p.Prime := by
  obtain ⟨s, hs, rfl⟩ := List.mem_map.mp hp
  refine primes_of_certified ?_ h s hs
  intro q hq
  rw [List.mem_singleton.mp hq]
  exact Nat.prime_two

end RefineId.Lib.Pratt
