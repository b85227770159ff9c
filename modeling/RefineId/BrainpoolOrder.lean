/-
  RefineId.BrainpoolOrder — the generator of brainpoolP384r1 has the prime order `n`.
  ════════════════════════════════════════════════════════════════════════════

  `brainpool_p384.rs` takes the order from the standard.  Here it is proved: `n` has a
  certificate of primality, and a chain of doublings and additions without division finds
  `(n - 1)·G` to be `-G`.

  Main results:
    • `n_prime`                       : `n` is prime.
    • `order_generator`               : it is the order of the generator.
    • `scalarMul_generator_injective` : different scalars below `n` have different multiples,
                                        and only zero has the point at infinity.
-/
import RefineId.BrainpoolGroup
import RefineId.Lib.Jacobian

namespace RefineId

open Lib

namespace Brainpool

/-! ## §1. The order is prime -/

/-- `n()`. -/
def n : U384 := 0x8CB91E82A3386D280F5D6F7E50E641DF152F7109ED5456B31F166E6CAC0425A7CF3AB6AF6B7FC3103B883202E9046565

/-- The primes of a certificate of `n`. -/
def orderCertificate : List Pratt.Step :=
  [ ⟨3, 2, [2]⟩, ⟨5, 2, [2, 2]⟩, ⟨7, 3, [2, 3]⟩, ⟨11, 2, [2, 5]⟩, ⟨13, 2, [2, 2, 3]⟩,
    ⟨17, 3, [2, 2, 2, 2]⟩, ⟨19, 2, [2, 3, 3]⟩, ⟨29, 2, [2, 2, 7]⟩, ⟨37, 2, [2, 2, 3, 3]⟩,
    ⟨41, 6, [2, 2, 2, 5]⟩, ⟨43, 3, [2, 3, 7]⟩, ⟨53, 2, [2, 2, 13]⟩, ⟨59, 2, [2, 29]⟩,
    ⟨61, 2, [2, 2, 3, 5]⟩, ⟨67, 2, [2, 3, 11]⟩, ⟨79, 3, [2, 3, 13]⟩, ⟨89, 3, [2, 2, 2, 11]⟩,
    ⟨103, 5, [2, 3, 17]⟩, ⟨109, 6, [2, 2, 3, 3, 3]⟩, ⟨131, 2, [2, 5, 13]⟩, ⟨173, 2, [2, 2, 43]⟩,
    ⟨179, 2, [2, 89]⟩, ⟨233, 3, [2, 2, 2, 29]⟩, ⟨241, 7, [2, 2, 2, 2, 3, 5]⟩, ⟨347, 2, [2, 173]⟩,
    ⟨349, 2, [2, 2, 3, 29]⟩, ⟨467, 2, [2, 233]⟩, ⟨571, 3, [2, 3, 5, 19]⟩,
    ⟨617, 3, [2, 2, 2, 7, 11]⟩, ⟨1049, 3, [2, 2, 2, 131]⟩, ⟨1093, 5, [2, 2, 3, 7, 13]⟩,
    ⟨1709, 3, [2, 2, 7, 61]⟩, ⟨1801, 11, [2, 2, 2, 3, 3, 5, 5]⟩, ⟨2083, 2, [2, 3, 347]⟩,
    ⟨2377, 5, [2, 2, 2, 3, 3, 3, 11]⟩, ⟨2593, 7, [2, 2, 2, 2, 2, 3, 3, 3, 3]⟩,
    ⟨4273, 5, [2, 2, 2, 2, 3, 89]⟩, ⟨5413, 5, [2, 2, 3, 11, 41]⟩, ⟨5743, 10, [2, 3, 3, 11, 29]⟩,
    ⟨6997, 5, [2, 2, 3, 11, 53]⟩, ⟨9341, 2, [2, 2, 5, 467]⟩,
    ⟨9473, 3, [2, 2, 2, 2, 2, 2, 2, 2, 37]⟩, ⟨18947, 2, [2, 9473]⟩, ⟨28817, 3, [2, 2, 2, 2, 1801]⟩,
    ⟨43397, 2, [2, 2, 19, 571]⟩, ⟨60901, 2, [2, 2, 3, 5, 5, 7, 29]⟩, ⟨119087, 5, [2, 11, 5413]⟩,
    ⟨1559777, 3, [2, 2, 2, 2, 2, 79, 617]⟩, ⟨1866961, 13, [2, 2, 2, 2, 3, 3, 5, 2593]⟩,
    ⟨2520431, 7, [2, 5, 11, 11, 2083]⟩, ⟨4977439, 6, [2, 3, 349, 2377]⟩,
    ⟨5071793, 3, [2, 2, 2, 2, 11, 28817]⟩, ⟨11201767, 3, [2, 3, 1866961]⟩,
    ⟨11543603, 2, [2, 7, 19, 43397]⟩, ⟨11594917, 5, [2, 2, 3, 3, 53, 59, 103]⟩,
    ⟨124822877, 2, [2, 2, 67, 109, 4273]⟩, ⟨657021949, 2, [2, 2, 3, 11, 4977439]⟩,
    ⟨1454493979, 7, [2, 3, 3, 7, 11543603]⟩, ⟨27678676889, 6, [2, 2, 2, 17, 1709, 119087]⟩,
    ⟨49393939847159, 13, [2, 1049, 9341, 2520431]⟩,
    ⟨53014379452169, 3, [2, 2, 2, 5743, 18947, 60901]⟩,
    ⟨288135026414491, 2, [2, 3, 5, 347, 27678676889]⟩,
    ⟨8067780739605749, 3, [2, 2, 7, 288135026414491]⟩,
    ⟨2788900573532341797131599550190476443808598899, 2, [2, 7, 179, 241, 1093, 5071793, 11594917, 1454493979, 49393939847159]⟩,
    ⟨669909697361913545660898382546007419518544524592370543, 5, [2, 7, 11, 1559777, 2788900573532341797131599550190476443808598899]⟩,
    ⟨90050068090664042551646936303486902724615855323314057604193773, 2, [2, 2, 3, 11201767, 669909697361913545660898382546007419518544524592370543]⟩,
    ⟨21659270770119316173069236842332604979796116387017648600075645274821611501358515537962695117368903252229601718723941, 2, [2, 2, 5, 7, 7, 6997, 124822877, 657021949, 53014379452169, 8067780739605749, 90050068090664042551646936303486902724615855323314057604193773]⟩]

theorem n_prime : n.toNat.Prime := by
  have hchecked : Pratt.certified orderCertificate [2] = true := by decide +kernel
  exact Pratt.prime_of_certified hchecked (by decide +kernel)

/-! ## §2. The order -/

/-- `(n - 1)·G` in three coordinates. -/
def lastMultiple : Jacobian Fe := Jacobian.multiple feA ⟨fe gX, fe gY, fe 1⟩ 383 (n.toNat - 1)

theorem lastMultiple_eq : lastMultiple.z ≠ 0 ∧
    lastMultiple.x = fe gX * (lastMultiple.z * lastMultiple.z) ∧
    lastMultiple.y = -fe gY * (lastMultiple.z * lastMultiple.z * lastMultiple.z) := by
  decide +kernel

/-- The element the generator stands for. -/
noncomputable def generatorElement : brainpoolP384r1.curve.Point := AffinePoint.generator.toPoint

theorem generator_equation : brainpoolP384r1.Equation (residue gX) (residue gY) :=
  AffinePoint.generator_valid.equation

theorem represents_generator : AffinePoint.Represents AffinePoint.generator generatorElement :=
  ⟨AffinePoint.generator_valid, rfl⟩

theorem generatorElement_eq : generatorElement = ShortWeierstrass.point generator_equation :=
  AffinePoint.toPoint_some generator_equation

theorem residue_one : residue 1 = 1 := by
  have hone : (1 : U384).toNat = 1 := by decide +kernel
  rw [residue, hone, Nat.cast_one]

/-- `n - 1` has 384 bits. -/
theorem n_bits : 2 ^ 383 ≤ n.toNat - 1 ∧ n.toNat - 1 < 2 ^ (383 + 1) := by decide +kernel

/-- **The last multiple is the opposite of the generator.** -/
theorem last_nsmul : (n.toNat - 1) • generatorElement = -generatorElement := by
  obtain ⟨hz, hx, hy⟩ := lastMultiple_eq
  have hstands := Jacobian.multiple_stands generator_equation n_bits.1 n_bits.2
  -- the chain over the field is the image of the chain over the numbers
  have hmap : lastMultiple.map Fe.residue = Jacobian.multiple brainpoolP384r1.a
      ⟨residue gX, residue gY, 1⟩ 383 (n.toNat - 1) := by
    rw [lastMultiple, Jacobian.map_multiple residue_add residue_sub residue_mul, residue_feA]
    simp only [Jacobian.map, residue_fe, residue_one]
  rw [← hmap] at hstands
  have hz0 : Fe.residue lastMultiple.z ≠ 0 := by
    intro hzero
    apply hz
    apply Fe.residue_injective
    rw [hzero]
    rfl
  obtain ⟨hequation, hmultiple⟩ := hstands hz0
  rw [generatorElement_eq, hmultiple, ShortWeierstrass.point_neg]
  have hxz : Fe.residue lastMultiple.x / Fe.residue lastMultiple.z ^ 2 = residue gX := by
    rw [hx, residue_mul, residue_mul, residue_fe]
    field_simp
  have hyz : Fe.residue lastMultiple.y / Fe.residue lastMultiple.z ^ 3 = -residue gY := by
    rw [hy, residue_mul, residue_mul, residue_mul, residue_neg, residue_fe]
    field_simp
  obtain ⟨_, hpoint⟩ := Jacobian.point_congr hequation hxz hyz
  exact hpoint

theorem generatorElement_ne_zero : generatorElement ≠ 0 := by
  rw [generatorElement_eq]
  exact ShortWeierstrass.point_ne_zero _

/-- **The order of the generator.** -/
theorem order_generator : addOrderOf generatorElement = n.toNat := by
  have hpos : 1 ≤ n.toNat := n_prime.one_lt.le
  have hzero : n.toNat • generatorElement = 0 := by
    calc n.toNat • generatorElement = (n.toNat - 1 + 1) • generatorElement := by
          rw [Nat.sub_add_cancel hpos]
      _ = -generatorElement + generatorElement := by rw [succ_nsmul, last_nsmul]
      _ = 0 := neg_add_cancel _
  have : Fact n.toNat.Prime := ⟨n_prime⟩
  exact addOrderOf_eq_prime hzero generatorElement_ne_zero

namespace AffinePoint

/-- A valid point stands for zero only when it is the point at infinity. -/
theorem Represents.eq_zero_iff {point : AffinePoint} {X : brainpoolP384r1.curve.Point}
    (h : Represents point X) : X = 0 ↔ point = infinity := by
  constructor
  · rintro rfl
    exact h.unique represents_infinity
  · rintro rfl
    exact h.toPoint_eq.symm

/-- Every point but infinity has an encoding. -/
theorem encodeUncompressed_eq_none {point : AffinePoint} :
    point.encodeUncompressed = none ↔ point = infinity := by
  obtain ⟨_ | ⟨x, y⟩⟩ := point <;> simp [encodeUncompressed, infinity]

/-! ## §3. Multiples of the generator -/

/-- A point and a multiple of the generator it is. -/
def Multiple (point : AffinePoint) (k : Nat) : Prop := Represents point (k • generatorElement)

theorem multiple_generator : Multiple generator 1 := by
  unfold Multiple
  rw [one_nsmul]
  exact represents_generator

theorem Multiple.scalarMul {point : AffinePoint} {k : Nat} (h : Multiple point k) (m : U384) :
    Multiple (point.scalarMul m) (m.toNat * k) := by
  have hm := represents_scalarMul h m
  rwa [← mul_nsmul'] at hm

theorem Multiple.add {point other : AffinePoint} {k l : Nat} (h₁ : Multiple point k)
    (h₂ : Multiple other l) : Multiple (point.add other) (k + l) := by
  have hsum := represents_add h₁ h₂
  rwa [← add_nsmul] at hsum

/-- **One point for one multiple.** -/
theorem Multiple.unique {point other : AffinePoint} {k : Nat} (h₁ : Multiple point k)
    (h₂ : Multiple other k) : point = other := Represents.unique h₁ h₂

/-- **A multiple is infinity just when the order divides it.** -/
theorem Multiple.eq_infinity_iff {point : AffinePoint} {k : Nat} (h : Multiple point k) :
    point = infinity ↔ n.toNat ∣ k := by
  rw [← Represents.eq_zero_iff h, ← order_generator, addOrderOf_dvd_iff_nsmul_eq_zero]

/-- Valid points are told apart by their encodings. -/
theorem encodeUncompressed_injective {point other : AffinePoint} (h₁ : point.Valid)
    (h₂ : other.Valid) (h : point.encodeUncompressed = other.encodeUncompressed) :
    point = other := by
  cases hbytes : point.encodeUncompressed with
  | none =>
    rw [hbytes] at h
    rw [encodeUncompressed_eq_none.mp hbytes, encodeUncompressed_eq_none.mp h.symm]
  | some bytes =>
    rw [hbytes] at h
    have hpoint := decode_of_encode h₁ hbytes
    rw [decode_of_encode h₂ h.symm] at hpoint
    exact (Option.some.inj hpoint).symm

/-- **Multiples of the generator**: `n` is prime, `k·G` is infinity just when `n` divides `k`, and
    two scalars below `n` have the same multiple only when they are the same. -/
theorem scalarMul_generator_injective (k l : U384) :
    n.toNat.Prime ∧
    ((generator.scalarMul k).encodeUncompressed = none ↔ n.toNat ∣ k.toNat) ∧
    (k < n → l < n →
      ((generator.scalarMul k).encodeUncompressed = (generator.scalarMul l).encodeUncompressed ↔
        k = l)) := by
  have hk := represents_scalarMul represents_generator k
  have hl := represents_scalarMul represents_generator l
  refine ⟨n_prime, ?_, ?_⟩
  · rw [encodeUncompressed_eq_none, (multiple_generator.scalarMul k).eq_infinity_iff, mul_one]
  · intro hkn hln
    constructor
    · intro hencode
      have hsame := encodeUncompressed_injective hk.valid hl.valid hencode
      have hmultiples : k.toNat • generatorElement = l.toNat • generatorElement := by
        rw [← hk.toPoint_eq, ← hl.toPoint_eq, hsame]
      have hmod := nsmul_injOn_Iio_addOrderOf (x := generatorElement)
      rw [order_generator] at hmod
      exact BitVec.eq_of_toNat_eq (hmod (BitVec.lt_def.mp hkn) (BitVec.lt_def.mp hln) hmultiples)
    · rintro rfl
      rfl

end AffinePoint

end Brainpool

end RefineId
