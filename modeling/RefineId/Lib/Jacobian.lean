/-
  RefineId.Lib.Jacobian — multiples of a point without division.
  ════════════════════════════════════════════════════════════════════════════

  A triple `(x, y, z)` with `z` not zero stands for the affine point `(x/z², y/z³)`.  Doubling
  and adding need no inverse then, so a multiple of a point by a number of hundreds of bits is
  found by evaluation.  The last coordinate is a product of all that must not vanish on the
  way: where it is not zero in the end, no step met a degenerate case.

  Main results:
    • `double_stands`, `addAffine_stands` : the formulae are the group law.
    • `multiple_stands`                   : so is the chain of doublings and additions.
-/
import RefineId.Lib.ShortWeierstrass
import Mathlib.Tactic.FieldSimp

namespace RefineId.Lib

structure Jacobian (R : Type) where
  x : R
  y : R
  z : R

namespace Jacobian

/-! ## §1. The formulae -/

section
variable {R : Type} [Add R] [Sub R] [Mul R]

def double (a : R) (P : Jacobian R) : Jacobian R :=
  let yy := P.y * P.y
  let zz := P.z * P.z
  let s := P.x * yy + P.x * yy + (P.x * yy + P.x * yy)
  let m := P.x * P.x + P.x * P.x + P.x * P.x + a * (zz * zz)
  let x' := m * m - (s + s)
  let yyyy := yy * yy + yy * yy
  let eight := yyyy + yyyy + (yyyy + yyyy)
  ⟨x', m * (s - x') - eight, P.y * P.z + P.y * P.z⟩

/-- The sum with an affine point. -/
def addAffine (P : Jacobian R) (x y : R) : Jacobian R :=
  let zz := P.z * P.z
  let h := x * zz - P.x
  let r := y * (zz * P.z) - P.y
  let hh := h * h
  let v := P.x * hh
  let x' := r * r - hh * h - (v + v)
  ⟨x', r * (v - x') - P.y * (hh * h), P.z * h⟩

/-- The multiple of an affine point by `k`, from the highest bit of `k` down; `bits` counts the
    bits below it. -/
def multiple (a : R) (start : Jacobian R) : Nat → Nat → Jacobian R
  | 0, _ => start
  | bits + 1, k =>
    let twice := (multiple a start bits (k / 2)).double a
    if k % 2 = 0 then twice else twice.addAffine start.x start.y

/-- The coordinates elsewhere. -/
def map {S : Type} (φ : R → S) (P : Jacobian R) : Jacobian S := ⟨φ P.x, φ P.y, φ P.z⟩

variable {S : Type} [Add S] [Sub S] [Mul S] {φ : R → S}

/-- **The chain in another ring** of the image of its coordinates. -/
theorem map_multiple (hadd : ∀ x y, φ (x + y) = φ x + φ y) (hsub : ∀ x y, φ (x - y) = φ x - φ y)
    (hmul : ∀ x y, φ (x * y) = φ x * φ y) (a : R) (start : Jacobian R) (bits k : Nat) :
    (multiple a start bits k).map φ = multiple (φ a) (start.map φ) bits k := by
  have hdouble : ∀ P : Jacobian R, (P.double a).map φ = (P.map φ).double (φ a) := by
    intro P
    simp only [double, map, hadd, hsub, hmul]
  have haddAffine : ∀ (P : Jacobian R) x y,
      (P.addAffine x y).map φ = (P.map φ).addAffine (φ x) (φ y) := by
    intro P x y
    simp only [addAffine, map, hadd, hsub, hmul]
  induction bits generalizing k with
  | zero => rfl
  | succ bits ih =>
    simp only [multiple]
    split
    · rw [hdouble, ih]
    · rw [haddAffine, hdouble, ih]
      rfl

end

/-! ## §2. The group law -/

section
variable {F : Type} [Field F] [DecidableEq F] {C : ShortWeierstrass F} [C.curve.IsElliptic]

open ShortWeierstrass

/-- A triple and the point it stands for, unless its last coordinate is zero. -/
def Stands (P : Jacobian F) (A : C.curve.Point) : Prop :=
  P.z ≠ 0 → ∃ h : C.Equation (P.x / P.z ^ 2) (P.y / P.z ^ 3), A = point h

omit [DecidableEq F] in
theorem point_congr {x y x' y' : F} (h : C.Equation x y) (hx : x = x') (hy : y = y') :
    ∃ h' : C.Equation x' y', point h = point h' := by
  subst hx hy
  exact ⟨h, rfl⟩

theorem double_stands {P : Jacobian F} {A : C.curve.Point} (h : P.Stands A) :
    (P.double C.a).Stands (A + A) := by
  intro hz'
  have hyz : P.y * P.z + P.y * P.z ≠ 0 := hz'
  have hz : P.z ≠ 0 := by
    intro hz
    exact hyz (by rw [hz]; ring)
  have htwo : (2 : F) ≠ 0 := by
    intro htwo
    exact hyz (by linear_combination P.y * P.z * htwo)
  have hy : P.y ≠ 0 := by
    intro hy
    exact hyz (by rw [hy]; ring)
  obtain ⟨hequation, rfl⟩ := h hz
  have hi : (P.y / P.z ^ 3 + P.y / P.z ^ 3) * (P.z ^ 3 / (2 * P.y)) = 1 := by
    field_simp
    ring
  have hsum : P.y * P.z + P.y * P.z = 2 * P.y * P.z := by ring
  rw [point_double hequation hi]
  apply point_congr
  · simp only [thirdX, double, hsum]
    field_simp
    ring
  · simp only [thirdY, thirdX, double, hsum]
    field_simp
    ring

theorem addAffine_stands {P : Jacobian F} {A : C.curve.Point} {x y : F} (h : P.Stands A)
    (hxy : C.Equation x y) : (P.addAffine x y).Stands (A + point hxy) := by
  intro hz'
  obtain ⟨X, Y, Z⟩ := P
  -- the difference of the abscissae, and with it the abscissa of the triple
  obtain ⟨d, hd⟩ : ∃ d, d = x * (Z * Z) - X := ⟨_, rfl⟩
  obtain rfl : X = x * (Z * Z) - d := by
    rw [hd]
    ring
  have hzd : Z * d ≠ 0 := by
    rw [hd]
    exact hz'
  have hz : Z ≠ 0 := left_ne_zero_of_mul hzd
  have hd0 : d ≠ 0 := right_ne_zero_of_mul hzd
  obtain ⟨hequation, rfl⟩ := h hz
  have hi : (x - (x * (Z * Z) - d) / Z ^ 2) * (Z ^ 2 / d) = 1 := by
    field_simp
    ring
  rw [point_add hequation hxy hi]
  apply point_congr
  · simp only [thirdX, addAffine, sub_sub_cancel]
    field_simp
    ring
  · simp only [thirdY, thirdX, addAffine, sub_sub_cancel]
    field_simp
    ring

/-- **The chain is the multiple.** -/
theorem multiple_stands {x y : F} (hxy : C.Equation x y) {bits k : Nat} (hlow : 2 ^ bits ≤ k)
    (hhigh : k < 2 ^ (bits + 1)) :
    (multiple C.a ⟨x, y, 1⟩ bits k).Stands (k • (point hxy : C.curve.Point)) := by
  induction bits generalizing k with
  | zero =>
    obtain rfl : k = 1 := by omega
    intro _
    rw [one_nsmul]
    exact point_congr hxy (by simp [multiple]) (by simp [multiple])
  | succ bits ih =>
    have hpow : 2 ^ (bits + 1) = 2 * 2 ^ bits := by ring
    have hpow' : 2 ^ (bits + 1 + 1) = 2 * 2 ^ (bits + 1) := by ring
    have htwice := double_stands (ih (k := k / 2) (by omega) (by omega))
    rw [← add_nsmul] at htwice
    simp only [multiple]
    by_cases heven : k % 2 = 0
    · rw [if_pos heven]
      have hk : k / 2 + k / 2 = k := by omega
      rwa [hk] at htwice
    · rw [if_neg heven]
      have hk : k = k / 2 + k / 2 + 1 := by omega
      have hsum := addAffine_stands htwice hxy
      rwa [← succ_nsmul, ← hk] at hsum

end

end Jacobian

end RefineId.Lib
