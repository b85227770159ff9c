/-
  RefineId.Lib.ShortWeierstrass — the group of `y² = x³ + ax + b`.
  ════════════════════════════════════════════════════════════════════════════

  Chords and tangents in affine coordinates.  That they stay on the curve is algebra in any
  commutative ring where the denominator has an inverse; that they compute the group law
  needs a field and a curve without singular points.

  Main results:
    • `tangent_equation`, `chord_equation` : the third point is on the curve.
    • `point_neg`, `point_double`, `point_add`, `point_add_opposite` : the formulae are the
                                             group law.
-/
import Mathlib.AlgebraicGeometry.EllipticCurve.Affine.Point
import Mathlib.Tactic.LinearCombination

namespace RefineId.Lib

/-- The coefficients of a curve in short Weierstrass form. -/
structure ShortWeierstrass (R : Type) where
  a : R
  b : R

namespace ShortWeierstrass

/-! ## §1. The third point -/

section
variable {R : Type} [CommRing R] (C : ShortWeierstrass R)

def Equation (x y : R) : Prop := y * y = x * x * x + C.a * x + C.b

/-- The coordinates of the third point on a line of slope `l`, mirrored. -/
def thirdX (l x₁ x₂ : R) : R := l * l - x₁ - x₂

def thirdY (l x₁ y₁ x₃ : R) : R := l * (x₁ - x₃) - y₁

variable {C}

theorem neg_equation {x y : R} (h : C.Equation x y) : C.Equation x (-y) := by
  unfold Equation at h ⊢
  rw [neg_mul_neg]
  exact h

/-- The tangent meets the curve again. -/
theorem tangent_equation {x y i : R} (h : C.Equation x y) (hi : (y + y) * i = 1) :
    C.Equation (thirdX ((3 * (x * x) + C.a) * i) x x)
      (thirdY ((3 * (x * x) + C.a) * i) x y (thirdX ((3 * (x * x) + C.a) * i) x x)) := by
  generalize hl : (3 * (x * x) + C.a) * i = l
  have hslope : 2 * y * l = 3 * (x * x) + C.a := by
    linear_combination (3 * (x * x) + C.a) * hi - 2 * y * hl
  unfold Equation at h ⊢
  unfold thirdY thirdX
  linear_combination h - (3 * x - l * l) * hslope

/-- The chord meets the curve again. -/
theorem chord_equation {x₁ y₁ x₂ y₂ i : R} (h₁ : C.Equation x₁ y₁) (h₂ : C.Equation x₂ y₂)
    (hi : (x₂ - x₁) * i = 1) :
    C.Equation (thirdX ((y₂ - y₁) * i) x₁ x₂)
      (thirdY ((y₂ - y₁) * i) x₁ y₁ (thirdX ((y₂ - y₁) * i) x₁ x₂)) := by
  generalize hl : (y₂ - y₁) * i = l
  have hslope : l * (x₂ - x₁) = y₂ - y₁ := by
    linear_combination (y₂ - y₁) * hi - (x₂ - x₁) * hl
  unfold Equation at h₁ h₂ ⊢
  -- the difference of the two equations, divided by the difference of the abscissae
  have hsum : 2 * y₁ * l = x₁ * x₁ + x₁ * x₂ + x₂ * x₂ + C.a - l * l * (x₂ - x₁) := by
    have hdiff : (x₂ - x₁) * (2 * y₁ * l) =
        (x₂ - x₁) * (x₁ * x₁ + x₁ * x₂ + x₂ * x₂ + C.a - l * l * (x₂ - x₁)) := by
      linear_combination h₂ - h₁ + (2 * y₁ + l * (x₂ - x₁) + (y₂ - y₁)) * hslope
    linear_combination i * hdiff + (x₁ * x₁ + x₁ * x₂ + x₂ * x₂ + C.a - l * l * (x₂ - x₁) -
      2 * y₁ * l) * hi
  unfold thirdY thirdX
  linear_combination h₁ - (2 * x₁ + x₂ - l * l) * hsum

end

/-! ## §2. The group law -/

section
variable {F : Type} [Field F] (C : ShortWeierstrass F)

open WeierstrassCurve.Affine

/-- The curve in Mathlib's general form. -/
def curve : WeierstrassCurve.Affine F := ⟨0, 0, 0, C.a, C.b⟩

variable {C}

theorem curve_equation {x y : F} : C.curve.Equation x y ↔ C.Equation x y := by
  rw [equation_iff]
  simp only [curve, Equation]
  constructor
  · intro h
    linear_combination h
  · intro h
    linear_combination h

theorem curve_negY (x y : F) : C.curve.negY x y = -y := by
  simp [negY, curve]

theorem curve_addX (x₁ x₂ l : F) : C.curve.addX x₁ x₂ l = thirdX l x₁ x₂ := by
  simp only [addX, curve, thirdX]
  ring

theorem curve_addY (x₁ x₂ y₁ l : F) :
    C.curve.addY x₁ x₂ y₁ l = thirdY l x₁ y₁ (thirdX l x₁ x₂) := by
  rw [addY, curve_negY, negAddY, curve_addX, thirdY]
  ring

variable [C.curve.IsElliptic]

/-- The point with given coordinates. -/
def point {x y : F} (h : C.Equation x y) : C.curve.Point := .mk (curve_equation.mpr h)

theorem some_eq_point {x y x' y' : F} (h : C.curve.Nonsingular x y) (h' : C.Equation x' y')
    (hx : x = x') (hy : y = y') : Point.some x y h = point h' := by
  subst hx hy
  rfl

theorem point_injective {x y x' y' : F} {h : C.Equation x y} {h' : C.Equation x' y'}
    (heq : point h = point h') : x = x' ∧ y = y' := by
  injection heq with hx hy
  exact ⟨hx, hy⟩

theorem point_ne_zero {x y : F} (h : C.Equation x y) : point h ≠ 0 := Point.some_ne_zero _

theorem point_neg {x y : F} (h : C.Equation x y) : -point h = point (neg_equation h) := by
  unfold point Point.mk
  rw [Point.neg_some]
  exact some_eq_point _ (neg_equation h) rfl (curve_negY x y)

variable [DecidableEq F]

/-- A point and its mirror image. -/
theorem point_add_opposite {x y₁ y₂ : F} (h₁ : C.Equation x y₁) (h₂ : C.Equation x y₂)
    (hy : y₁ ≠ y₂ ∨ y₁ + y₁ = 0) : point h₁ + point h₂ = 0 := by
  -- the two ordinates have one square
  have hsquare : (y₁ - y₂) * (y₁ + y₂) = 0 := by
    unfold Equation at h₁ h₂
    linear_combination h₁ - h₂
  have hmirror : y₁ = C.curve.negY x y₂ := by
    rw [curve_negY]
    cases mul_eq_zero.mp hsquare with
    | inl hsame =>
      cases hy with
      | inl hne => exact absurd (sub_eq_zero.mp hsame) hne
      | inr hzero => linear_combination hzero - hsame
    | inr hopposite => linear_combination hopposite
  exact Point.add_of_Y_eq rfl hmirror

/-- The tangent doubles a point. -/
theorem point_double {x y i : F} (h : C.Equation x y) (hi : (y + y) * i = 1) :
    point h + point h = point (tangent_equation h hi) := by
  have hne : y + y ≠ 0 := left_ne_zero_of_mul_eq_one hi
  have hy : y ≠ C.curve.negY x y := by
    rw [curve_negY]
    intro hy
    exact hne (by linear_combination hy)
  have hslope : C.curve.slope x x y y = (3 * (x * x) + C.a) * i := by
    rw [slope_of_Y_ne rfl hy, curve_negY, sub_neg_eq_add, div_eq_iff hne]
    simp only [curve]
    linear_combination -(3 * (x * x) + C.a) * hi
  unfold point Point.mk
  rw [Point.add_self_of_Y_ne hy]
  refine some_eq_point _ (tangent_equation h hi) ?_ ?_
  · rw [hslope, curve_addX]
  · rw [hslope, curve_addY]

/-- The chord adds two points. -/
theorem point_add {x₁ y₁ x₂ y₂ i : F} (h₁ : C.Equation x₁ y₁) (h₂ : C.Equation x₂ y₂)
    (hi : (x₂ - x₁) * i = 1) : point h₁ + point h₂ = point (chord_equation h₁ h₂ hi) := by
  have hne : x₁ - x₂ ≠ 0 := by
    intro hzero
    have hd : x₂ - x₁ ≠ 0 := left_ne_zero_of_mul_eq_one hi
    exact hd (by linear_combination -hzero)
  have hslope : C.curve.slope x₁ x₂ y₁ y₂ = (y₂ - y₁) * i := by
    rw [slope_of_X_ne (sub_ne_zero.mp hne), div_eq_iff hne]
    linear_combination (y₂ - y₁) * hi
  unfold point Point.mk
  rw [Point.add_of_X_ne (sub_ne_zero.mp hne)]
  refine some_eq_point _ (chord_equation h₁ h₂ hi) ?_ ?_
  · rw [hslope, curve_addX]
  · rw [hslope, curve_addY]

end

end ShortWeierstrass

end RefineId.Lib
