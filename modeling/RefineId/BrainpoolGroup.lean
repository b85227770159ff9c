/-
  RefineId.BrainpoolGroup — the operations of brainpoolP384r1 are the group law.
  ════════════════════════════════════════════════════════════════════════════

  Over the field of `p` elements the curve is an abelian group, and a point with coordinates
  below `p` stands for one element of it.  The prime `p` has a certificate, so nothing is
  assumed of it.

  Main results:
    • `p_prime`              : `p` is prime.
    • `represents_neg`, `represents_double`, `represents_add` : the operations, degenerate
                               cases included.
    • `represents_scalarMul` : `scalar_mul` is the k-fold sum.
    • `operations_group`     : all of them, and two scalars commute.
-/
import RefineId.Brainpool
import RefineId.Lib.Pratt

namespace RefineId

open Lib

namespace Brainpool

/-! ## §1. The field -/

/-- The primes of a certificate of `p`. -/
def certificate : List Pratt.Step :=
  [ ⟨3, 2, [2]⟩, ⟨5, 2, [2, 2]⟩, ⟨7, 3, [2, 3]⟩, ⟨11, 2, [2, 5]⟩, ⟨13, 2, [2, 2, 3]⟩,
    ⟨17, 3, [2, 2, 2, 2]⟩, ⟨23, 5, [2, 11]⟩, ⟨29, 2, [2, 2, 7]⟩, ⟨31, 3, [2, 3, 5]⟩,
    ⟨37, 2, [2, 2, 3, 3]⟩, ⟨41, 6, [2, 2, 2, 5]⟩, ⟨43, 3, [2, 3, 7]⟩, ⟨47, 5, [2, 23]⟩,
    ⟨53, 2, [2, 2, 13]⟩, ⟨67, 2, [2, 3, 11]⟩, ⟨71, 7, [2, 5, 7]⟩, ⟨73, 5, [2, 2, 2, 3, 3]⟩,
    ⟨79, 3, [2, 3, 13]⟩, ⟨83, 2, [2, 41]⟩, ⟨89, 3, [2, 2, 2, 11]⟩, ⟨113, 3, [2, 2, 2, 2, 7]⟩,
    ⟨227, 2, [2, 113]⟩, ⟨251, 6, [2, 5, 5, 5]⟩, ⟨283, 3, [2, 3, 47]⟩, ⟨307, 5, [2, 3, 3, 17]⟩,
    ⟨337, 10, [2, 2, 2, 2, 3, 7]⟩, ⟨463, 3, [2, 3, 7, 11]⟩, ⟨601, 7, [2, 2, 2, 3, 5, 5]⟩,
    ⟨1093, 5, [2, 2, 3, 7, 13]⟩, ⟨1229, 2, [2, 2, 307]⟩, ⟨1423, 3, [2, 3, 3, 79]⟩,
    ⟨1777, 5, [2, 2, 2, 2, 3, 37]⟩, ⟨1877, 2, [2, 2, 7, 67]⟩, ⟨2459, 2, [2, 1229]⟩,
    ⟨2543, 5, [2, 31, 41]⟩, ⟨3037, 2, [2, 2, 3, 11, 23]⟩, ⟨3607, 5, [2, 3, 601]⟩,
    ⟨4919, 13, [2, 2459]⟩, ⟨9839, 7, [2, 4919]⟩, ⟨10453, 5, [2, 2, 3, 13, 67]⟩,
    ⟨11131, 2, [2, 3, 5, 7, 53]⟩, ⟨11393, 3, [2, 2, 2, 2, 2, 2, 2, 89]⟩, ⟨37967, 5, [2, 41, 463]⟩,
    ⟨78713, 3, [2, 2, 2, 9839]⟩, ⟨95959, 3, [2, 3, 3, 3, 1777]⟩, ⟨97151, 13, [2, 5, 5, 29, 67]⟩,
    ⟨157427, 2, [2, 78713]⟩, ⟨734647, 3, [2, 3, 11, 11131]⟩, ⟨868583, 5, [2, 11, 13, 3037]⟩,
    ⟨991057, 10, [2, 2, 2, 2, 3, 11, 1877]⟩, ⟨123606883, 2, [2, 3, 3, 7, 41, 71, 337]⟩,
    ⟨1898722439, 11, [2, 1093, 868583]⟩, ⟨2663886769, 7, [2, 2, 2, 2, 3, 41, 67, 89, 227]⟩,
    ⟨13843970897, 5, [2, 2, 2, 2, 7, 123606883]⟩, ⟨59016512273, 3, [2, 2, 2, 2, 37967, 97151]⟩,
    ⟨27093605140967, 5, [2, 7, 13, 83, 11393, 157427]⟩,
    ⟨8076987940436711, 7, [2, 5, 41, 1423, 13843970897]⟩,
    ⟨726928914639303991, 3, [2, 3, 3, 5, 8076987940436711]⟩,
    ⟨3012146720727260651, 13, [2, 5, 5, 283, 3607, 59016512273]⟩,
    ⟨7057776167979264311, 11, [2, 5, 11, 251, 95959, 2663886769]⟩,
    ⟨12811352796235023217778801482819, 2, [2, 3, 7, 13, 17, 1898722439, 726928914639303991]⟩,
    ⟨9511259360250244436150360929400467, 2,
      [2, 3, 3, 3, 3, 11, 73, 10453, 991057, 7057776167979264311]⟩,
    ⟨13857381403312519376221497559214358876512960238914501360589056738895920081, 3,
      [2, 2, 2, 2, 5, 13, 43, 2543, 12811352796235023217778801482819, 9511259360250244436150360929400467]⟩,
    ⟨21659270770119316173069236842332604979796116387017648600081618503821089934025961822236561982844534088440708417973331,
      3, [2, 3, 5, 11, 79, 734647, 27093605140967, 3012146720727260651,
        13857381403312519376221497559214358876512960238914501360589056738895920081]⟩]

theorem p_prime : p.Prime := by
  have hchecked : Pratt.certified certificate [2] = true := by decide +kernel
  exact Pratt.prime_of_certified hchecked (by decide +kernel)

instance : Fact p.Prime := ⟨p_prime⟩

/-- The curve has no singular point. -/
instance : brainpoolP384r1.curve.IsElliptic := by
  have hdiscriminant : brainpoolP384r1.curve.Δ =
      -((64 * a.toNat ^ 3 + 432 * b.toNat ^ 2 : Nat) : ZMod p) := by
    simp only [ShortWeierstrass.curve, brainpoolP384r1, residue, WeierstrassCurve.Δ,
      WeierstrassCurve.b₂, WeierstrassCurve.b₄, WeierstrassCurve.b₆, WeierstrassCurve.b₈]
    push_cast
    ring
  refine ⟨?_⟩
  rw [hdiscriminant, isUnit_iff_ne_zero, neg_ne_zero, Ne, ZMod.natCast_eq_zero_iff]
  decide +kernel

theorem invert_none {x : Fe} (h : invert x = none) : Fe.residue x = 0 := by
  have hnone := Option.map_eq_none_iff.mp h
  unfold RefineId.invert at hnone
  split at hnone
  · exact absurd hnone (by simp)
  · next hgcd =>
    -- a number that shares a factor with a prime is a multiple of it
    refine (ZMod.natCast_eq_zero_iff _ _).mpr ?_
    by_contra hdvd
    exact hgcd (Nat.Coprime.symm ((Nat.Prime.coprime_iff_not_dvd p_prime).mpr hdvd))

namespace AffinePoint

/-! ## §2. The element a point stands for -/

open ShortWeierstrass in
open Classical in
/-- The element of the group with the residues of the coordinates. -/
noncomputable def toPoint (point : AffinePoint) : brainpoolP384r1.curve.Point :=
  match point.residues with
  | none => 0
  | some (x, y) => if h : brainpoolP384r1.Equation x y then ShortWeierstrass.point h else 0

theorem toPoint_infinity : toPoint infinity = 0 := rfl

theorem toPoint_some {x y : U384} (h : brainpoolP384r1.Equation (residue x) (residue y)) :
    toPoint ⟨some (x, y)⟩ = ShortWeierstrass.point h := by
  unfold toPoint
  exact dif_pos h

/-- A valid point and the element it stands for. -/
structure Represents (point : AffinePoint) (X : brainpoolP384r1.curve.Point) : Prop where
  valid : point.Valid
  toPoint_eq : point.toPoint = X

theorem represents_infinity : Represents infinity 0 := ⟨valid_infinity, toPoint_infinity⟩

/-- **One valid point for one element.** -/
theorem Represents.unique {point other : AffinePoint} {X : brainpoolP384r1.curve.Point}
    (h₁ : Represents point X) (h₂ : Represents other X) : point = other := by
  rw [valid_eq_iff h₁.valid h₂.valid]
  have heq : point.toPoint = other.toPoint := h₁.toPoint_eq.trans h₂.toPoint_eq.symm
  obtain ⟨_ | ⟨x₁, y₁⟩⟩ := point
  · obtain ⟨_ | ⟨x₂, y₂⟩⟩ := other
    · rfl
    · rw [toPoint_some h₂.valid.equation] at heq
      exact absurd heq.symm (ShortWeierstrass.point_ne_zero _)
  · rw [toPoint_some h₁.valid.equation] at heq
    obtain ⟨_ | ⟨x₂, y₂⟩⟩ := other
    · exact absurd heq (ShortWeierstrass.point_ne_zero _)
    · rw [toPoint_some h₂.valid.equation] at heq
      obtain ⟨hx, hy⟩ := ShortWeierstrass.point_injective heq
      show some (residue x₁, residue y₁) = some (residue x₂, residue y₂)
      rw [hx, hy]

/-! ## §3. The operations -/

/-- Coordinates just computed stand for the point they are the residues of. -/
theorem represents_retrieve {x y : Fe} {x' y' : ZMod p} (h : brainpoolP384r1.Equation x' y')
    (hx : Fe.residue x = x') (hy : Fe.residue y = y') :
    Represents ⟨some (retrieve x, retrieve y)⟩ (ShortWeierstrass.point h) := by
  subst hx hy
  refine ⟨valid_retrieve h, ?_⟩
  have hretrieved : brainpoolP384r1.Equation (residue (retrieve x)) (residue (retrieve y)) := by
    rw [residue_retrieve, residue_retrieve]
    exact h
  rw [toPoint_some hretrieved]
  congr 1 <;> exact residue_retrieve _

theorem represents_neg {point : AffinePoint} {X : brainpoolP384r1.curve.Point}
    (h : Represents point X) : Represents point.neg (-X) := by
  refine ⟨neg_valid h.valid, ?_⟩
  rw [← h.toPoint_eq]
  obtain ⟨_ | ⟨x, y⟩⟩ := point
  · exact neg_zero.symm
  · have hy : residue (retrieve (-fe y)) = -residue y := by
      rw [residue_retrieve, residue_neg, residue_fe]
    have hneg : brainpoolP384r1.Equation (residue x) (residue (retrieve (-fe y))) := by
      rw [hy]
      exact ShortWeierstrass.neg_equation h.valid.equation
    rw [toPoint_some h.valid.equation, ShortWeierstrass.point_neg]
    show toPoint ⟨some (x, retrieve (-fe y))⟩ = _
    rw [toPoint_some hneg]
    congr 1

theorem represents_double {point : AffinePoint} {X : brainpoolP384r1.curve.Point}
    (h : Represents point X) : Represents point.double (X + X) := by
  rw [← h.toPoint_eq]
  obtain ⟨_ | ⟨x, y⟩⟩ := point
  · exact (add_zero (0 : brainpoolP384r1.curve.Point)).symm ▸ represents_infinity
  · have hequation := h.valid.equation
    rw [toPoint_some hequation]
    obtain ⟨hinvert, hnone⟩ | ⟨i, x₃, y₃, hi, hdouble, hx₃, hy₃⟩ := @double_cases x y
    · -- a point of order two
      have hzero : residue y + residue y = 0 := by
        rw [← residue_fe, ← residue_add]
        exact invert_none hinvert
      rw [hnone, ShortWeierstrass.point_add_opposite hequation hequation (.inr hzero)]
      exact represents_infinity
    · rw [hdouble, ShortWeierstrass.point_double hequation hi]
      exact represents_retrieve _ hx₃ (by rw [hy₃, hx₃])

theorem represents_add {point other : AffinePoint} {X Y : brainpoolP384r1.curve.Point}
    (h₁ : Represents point X) (h₂ : Represents other Y) :
    Represents (point.add other) (X + Y) := by
  rw [← h₁.toPoint_eq, ← h₂.toPoint_eq]
  obtain ⟨_ | ⟨x₁, y₁⟩⟩ := point
  · exact ⟨h₂.valid, (zero_add _).symm⟩
  obtain ⟨_ | ⟨x₂, y₂⟩⟩ := other
  · exact ⟨h₁.valid, (add_zero _).symm⟩
  have hequation₁ := h₁.valid.equation
  have hequation₂ := h₂.valid.equation
  by_cases hx : x₁ = x₂
  · subst hx
    by_cases hy : y₁ = y₂
    · subst hy
      have hsame : add ⟨some (x₁, y₁)⟩ ⟨some (x₁, y₁)⟩ = double ⟨some (x₁, y₁)⟩ := by simp [add]
      rw [hsame]
      exact represents_double ⟨h₁.valid, rfl⟩
    · -- different ordinates over one abscissa are opposite
      have hopposite : add ⟨some (x₁, y₁)⟩ ⟨some (x₁, y₂)⟩ = infinity := by simp [add, hy]
      have hne : residue y₁ ≠ residue y₂ := fun heq =>
        hy (residue_inj (h₁.valid.canonical _ _ rfl).2 (h₂.valid.canonical _ _ rfl).2 heq)
      rw [hopposite, toPoint_some hequation₁, toPoint_some hequation₂,
        ShortWeierstrass.point_add_opposite hequation₁ hequation₂ (.inl hne)]
      exact represents_infinity
  · rw [toPoint_some hequation₁, toPoint_some hequation₂]
    obtain ⟨hinvert, -⟩ | ⟨i, x₃, y₃, hi, hadd, hx₃, hy₃⟩ := @add_cases x₁ y₁ x₂ y₂ hx
    · -- different canonical abscissae have an invertible difference
      have hzero : residue x₂ - residue x₁ = 0 := by
        rw [← residue_fe, ← residue_fe, ← residue_sub]
        exact invert_none hinvert
      have hsame := residue_inj (h₁.valid.canonical _ _ rfl).1 (h₂.valid.canonical _ _ rfl).1
        (sub_eq_zero.mp hzero).symm
      exact absurd hsame hx
    · rw [hadd, ShortWeierstrass.point_add hequation₁ hequation₂ hi]
      exact represents_retrieve _ hx₃ (by rw [hy₃, hx₃])

/-! ## §4. Scalar multiplication -/

/-- **The k-fold sum.** -/
theorem represents_scalarMul {point : AffinePoint} {X : brainpoolP384r1.curve.Point}
    (h : Represents point X) (scalar : U384) :
    Represents (point.scalarMul scalar) (scalar.toNat • X) := by
  -- the sum stands for the bits so far; before the first set bit they are zero
  let I : Nat → AffinePoint × Bool → Prop := fun v s =>
    Represents s.1 (v • X) ∧ (s.2 = false → v = 0)
  have hstart : I 0 (infinity, false) := by
    refine ⟨?_, fun _ => rfl⟩
    rw [zero_nsmul]
    exact represents_infinity
  have hstep : ∀ v s (byte : UInt8) i, I v s →
      I (2 * v + (byte.toNat >>> i &&& 1)) (scalarBit point byte s i) := by
    intro v s byte i hs
    obtain ⟨result, started⟩ := s
    obtain ⟨hresult, hidle⟩ := hs
    have hbit : byte.toNat >>> i &&& 1 = 0 ∨ byte.toNat >>> i &&& 1 = 1 := by
      rw [Nat.and_one_is_mod]
      omega
    cases started with
    | false =>
      obtain rfl := hidle rfl
      rw [scalarBit_idle]
      obtain hbit | hbit := hbit
      · rw [hbit, if_neg (by decide)]
        exact ⟨hresult, fun _ => rfl⟩
      · rw [hbit, if_pos rfl]
        refine ⟨?_, fun hfalse => absurd hfalse (by simp)⟩
        rw [Nat.mul_zero, Nat.zero_add, one_nsmul]
        exact h
    | true =>
      have hdouble : Represents result.double ((2 * v) • X) := by
        rw [two_mul, add_nsmul]
        exact represents_double hresult
      rw [scalarBit_started]
      obtain hbit | hbit := hbit
      · rw [hbit, if_neg (by decide)]
        exact ⟨hdouble, fun hfalse => absurd hfalse (by simp)⟩
      · rw [hbit, if_pos rfl]
        refine ⟨?_, fun hfalse => absurd hfalse (by simp)⟩
        rw [succ_nsmul]
        exact represents_add hdouble h
  obtain ⟨_, hall, -⟩ := scalarMul_keeps hstart hstep scalar
  exact hall

/-- **The operations are the group's**, and two scalars can be taken in either order. -/
theorem operations_group {point other : AffinePoint} (h₁ : point.Valid) (h₂ : other.Valid)
    (k l : U384) :
    Represents point.neg (-point.toPoint) ∧
    Represents point.double (point.toPoint + point.toPoint) ∧
    Represents (point.add other) (point.toPoint + other.toPoint) ∧
    Represents (point.scalarMul k) (k.toNat • point.toPoint) ∧
    (point.scalarMul k).scalarMul l = (point.scalarMul l).scalarMul k := by
  have hpoint : Represents point point.toPoint := ⟨h₁, rfl⟩
  have hother : Represents other other.toPoint := ⟨h₂, rfl⟩
  refine ⟨represents_neg hpoint, represents_double hpoint, represents_add hpoint hother,
    represents_scalarMul hpoint k, ?_⟩
  have hkl := represents_scalarMul (represents_scalarMul hpoint k) l
  have hlk := represents_scalarMul (represents_scalarMul hpoint l) k
  rw [smul_comm] at hlk
  exact hkl.unique hlk

theorem generator_operations :
    Represents generator.neg (-generator.toPoint) ∧
    Represents generator.double (generator.toPoint + generator.toPoint) ∧
    Represents (generator.add generator) (generator.toPoint + generator.toPoint) ∧
    Represents (generator.scalarMul 2) ((2 : U384).toNat • generator.toPoint) ∧
    (generator.scalarMul 2).scalarMul 3 = (generator.scalarMul 3).scalarMul 2 :=
  operations_group generator_valid generator_valid 2 3

end AffinePoint

end Brainpool

end RefineId
