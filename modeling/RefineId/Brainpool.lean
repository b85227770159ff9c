/-
  RefineId.Brainpool — the curve brainpoolP384r1 of the key agreement.
  ════════════════════════════════════════════════════════════════════════════

  `crates/refineid-lib-core/src/crypto/brainpool_p384.rs`.  A `U384` is 384 bits; a
  `ConstMontyForm` is the residue it stands for, so that `Fe::new` reduces and `retrieve`
  gives the least representative.

  A point is meant to hold coordinates below `p`.  `decode_uncompressed` checks the curve
  equation modulo `p` and nothing else: it lets in coordinates from `p` on, and no operation
  but the formulae puts them right.

  Main results:
    • `double_valid`, `add_valid`, `scalarMul_valid` : the operations keep points valid.
    • `decodeUncompressed_valid_iff` : a decoded point is valid when both of its coordinates
                                       are below `p`.
    • `obtained_canonical`           : valid points are told apart by their residues, and
                                       each has one encoding.
-/
import Mathlib.Data.ZMod.Basic
import RefineId.Ecdsa
import RefineId.Lib.ShortWeierstrass

namespace RefineId

open Ber Lib

namespace Brainpool

/-! ## §1. Numbers and residues -/

/-- `U384`. -/
abbrev U384 := BitVec 384

/-- `p()`. -/
def p : Nat := 0x8CB91E82A3386D280F5D6F7E50E641DF152F7109ED5456B412B1DA197FB71123ACD3A729901D1A71874700133107EC53

/-- `a()`. -/
def a : U384 := 0x7BC382C63D8C150C3C72080ACE05AFA0C2BEA28E4FB22787139165EFBA91F90F8AA5814A503AD4EB04A8C7DD22CE2826

/-- `b()`. -/
def b : U384 := 0x04A8C7DD22CE28268B39B55416F0447C2FB77DE107DCD2A62E880EA53EEB62D57CB4390295DBC9943AB78696FA504C11

/-- `G_X_HEX`. -/
def gX : U384 := 0x1D1C64F068CF45FFA2A63A81B7C13F6B8847A3E77EF14FE3DB7FCAFE0CBD10E8E826E03436D646AAEF87B2E247D4AF1E

/-- `G_Y_HEX`. -/
def gY : U384 := 0x8ABE1D7520F9C2A45CB1EB8E95CFD55262B70B29FEEC5864E19C054FF99129280E4646217791811142820341263C5315

instance : NeZero p := ⟨by decide⟩

/-- `Fe`. -/
abbrev Fe := Fin p

/-- `fe`. -/
def fe (x : U384) : Fe := Fin.ofNat p x.toNat

/-- `retrieve`. -/
def retrieve (x : Fe) : U384 := BitVec.ofNat 384 x.val

/-- `ConstMontyForm::invert`. -/
def invert (x : Fe) : Option Fe := (RefineId.invert p x.val).map (Fin.ofNat p)

/-- `fe_three`. -/
def feThree : Fe := fe 3

/-- `fe_a`. -/
def feA : Fe := fe a

/-- `fe_b`. -/
def feB : Fe := fe b

/-! ## §2. Points -/

/-- `AffinePoint`. -/
structure AffinePoint where
  coords : Option (U384 × U384)
  deriving DecidableEq

namespace AffinePoint

/-- `INFINITY`. -/
def infinity : AffinePoint := ⟨none⟩

/-- `generator`. -/
def generator : AffinePoint := ⟨some (gX, gY)⟩

/-- `is_on_curve`. -/
def isOnCurve (point : AffinePoint) : Bool :=
  match point.coords with
  | none => true
  | some (xu, yu) =>
    let x := fe xu
    let y := fe yu
    let lhs := y * y
    let rhs := x * x * x + feA * x + feB
    retrieve lhs = retrieve rhs

/-- `encode_uncompressed`. -/
def encodeUncompressed (point : AffinePoint) : Option Bytes :=
  point.coords.map fun (x, y) => 0x04 :: (octets 48 x.toNat ++ octets 48 y.toNat)

/-- `U384::from_be_slice`. -/
def fromBeSlice (bytes : Bytes) : U384 := BitVec.ofNat 384 (beValue bytes)

/-- `decode_uncompressed`. -/
def decodeUncompressed (bytes : Bytes) : Option AffinePoint :=
  if bytes.length = 97 ∧ bytes.head? = some 0x04 then
    let x := fromBeSlice ((bytes.drop 1).take 48)
    let y := fromBeSlice ((bytes.drop 49).take 48)
    let point : AffinePoint := ⟨some (x, y)⟩
    if point.isOnCurve then some point else none
  else none

/-- `neg`. -/
def neg (point : AffinePoint) : AffinePoint :=
  match point.coords with
  | none => infinity
  | some (x, y) => ⟨some (x, retrieve (-fe y))⟩

/-- `double`. -/
def double (point : AffinePoint) : AffinePoint :=
  match point.coords with
  | none => infinity
  | some (xu, yu) =>
    let x := fe xu
    let y := fe yu
    let twoY := y + y
    match invert twoY with
    | none => infinity
    | some twoYInv =>
      let threeXSq := x * x * feThree
      let lambda := (threeXSq + feA) * twoYInv
      let twoX := x + x
      let x3 := lambda * lambda - twoX
      let y3 := lambda * (x - x3) - y
      ⟨some (retrieve x3, retrieve y3)⟩

/-- `add`. -/
def add (point other : AffinePoint) : AffinePoint :=
  match point.coords, other.coords with
  | none, _ => other
  | some _, none => point
  | some (x1u, y1u), some (x2u, y2u) =>
    if x1u = x2u then
      if y1u = y2u then point.double else infinity
    else
      let x1 := fe x1u
      let y1 := fe y1u
      let x2 := fe x2u
      let y2 := fe y2u
      match invert (x2 - x1) with
      | none => infinity
      | some dxInv =>
        let lambda := (y2 - y1) * dxInv
        let x3 := lambda * lambda - x1 - x2
        let y3 := lambda * (x1 - x3) - y1
        ⟨some (retrieve x3, retrieve y3)⟩

/-- One bit of `scalar_mul`: the sum so far, and whether a bit was set yet. -/
def scalarBit (point : AffinePoint) (byte : UInt8) (s : AffinePoint × Bool) (bitIdx : Nat) :
    AffinePoint × Bool :=
  let result := if s.2 then s.1.double else s.1
  if byte.toNat >>> bitIdx &&& 1 = 1 then
    if s.2 then (result.add point, true) else (point, true)
  else (result, s.2)

/-- One octet of `scalar_mul`, its highest bit first. -/
def scalarByte (point : AffinePoint) (s : AffinePoint × Bool) (byte : UInt8) :
    AffinePoint × Bool :=
  [7, 6, 5, 4, 3, 2, 1, 0].foldl (scalarBit point byte) s

/-- `scalar_mul`. -/
def scalarMul (point : AffinePoint) (scalar : U384) : AffinePoint :=
  ((octets 48 scalar.toNat).foldl (scalarByte point) (infinity, false)).1

end AffinePoint

/-! ## §3. Residues -/

/-- What a number and a field element are modulo `p`. -/
def residue (x : U384) : ZMod p := x.toNat

def Fe.residue (x : Fe) : ZMod p := x.val

/-- The curve of the module. -/
def brainpoolP384r1 : ShortWeierstrass (ZMod p) := ⟨residue a, residue b⟩

theorem p_lt : p < 2 ^ 384 := by decide +kernel

theorem toNat_lt (x : U384) : x.toNat < 256 ^ 48 := by
  calc x.toNat < 2 ^ 384 := x.isLt
    _ = 256 ^ 48 := by decide +kernel

theorem Fe.residue_injective {x y : Fe} (h : Fe.residue x = Fe.residue y) : x = y := by
  have hmod := (ZMod.natCast_eq_natCast_iff' _ _ _).mp h
  rw [Nat.mod_eq_of_lt x.isLt, Nat.mod_eq_of_lt y.isLt] at hmod
  exact Fin.ext hmod

@[simp] theorem residue_fe (x : U384) : Fe.residue (fe x) = residue x := by
  show ((x.toNat % p : Nat) : ZMod p) = (x.toNat : ZMod p)
  exact ZMod.natCast_mod _ _

theorem toNat_retrieve (x : Fe) : (retrieve x).toNat = x.val := by
  have hlt : x.val < 2 ^ 384 := by
    calc x.val < p := x.isLt
      _ < 2 ^ 384 := p_lt
  simp only [retrieve, BitVec.toNat_ofNat, Nat.mod_eq_of_lt hlt]

@[simp] theorem residue_retrieve (x : Fe) : residue (retrieve x) = Fe.residue x := by
  rw [residue, toNat_retrieve]
  rfl

@[simp] theorem residue_add (x y : Fe) : Fe.residue (x + y) = Fe.residue x + Fe.residue y := by
  rw [Fe.residue, Fin.val_add, ZMod.natCast_mod, Nat.cast_add]
  rfl

@[simp] theorem residue_mul (x y : Fe) : Fe.residue (x * y) = Fe.residue x * Fe.residue y := by
  rw [Fe.residue, Fin.val_mul, ZMod.natCast_mod, Nat.cast_mul]
  rfl

@[simp] theorem residue_sub (x y : Fe) : Fe.residue (x - y) = Fe.residue x - Fe.residue y := by
  have hle : y.val ≤ p := Nat.le_of_lt y.isLt
  rw [Fe.residue, Fin.sub_def]
  show (((p - y.val + x.val) % p : Nat) : ZMod p) = _
  rw [ZMod.natCast_mod, Nat.cast_add, Nat.cast_sub hle, ZMod.natCast_self]
  unfold Fe.residue
  ring

@[simp] theorem residue_neg (x : Fe) : Fe.residue (-x) = -Fe.residue x := by
  have hle : x.val ≤ p := Nat.le_of_lt x.isLt
  show (((p - x.val) % p : Nat) : ZMod p) = _
  rw [ZMod.natCast_mod, Nat.cast_sub hle, ZMod.natCast_self, zero_sub]
  rfl

@[simp] theorem residue_feThree : Fe.residue feThree = 3 := by
  have hthree : (3 : U384).toNat = 3 := by decide +kernel
  rw [feThree, residue_fe, residue, hthree]
  rfl

@[simp] theorem residue_feA : Fe.residue feA = brainpoolP384r1.a := residue_fe a

@[simp] theorem residue_feB : Fe.residue feB = brainpoolP384r1.b := residue_fe b

/-- An inverse that is found is one. -/
theorem invert_some {x y : Fe} (h : invert x = some y) : Fe.residue x * Fe.residue y = 1 := by
  obtain ⟨n, hn, rfl⟩ := Option.map_eq_some_iff.mp h
  unfold RefineId.invert at hn
  split at hn
  · next hgcd =>
    have hpos : (0 : Int) < p := by decide
    have hnonneg : 0 ≤ Nat.gcdA x.val p % (p : Int) := Int.emod_nonneg _ hpos.ne'
    have hbezout : (x.val : Int) * Nat.gcdA x.val p + p * Nat.gcdB x.val p = 1 := by
      rw [← Nat.gcd_eq_gcd_ab, hgcd]
      rfl
    have hcast : ((n : Nat) : ZMod p) = ((Nat.gcdA x.val p : Int) : ZMod p) := by
      rw [← Option.some.inj hn, ← Int.cast_natCast, Int.toNat_of_nonneg hnonneg, ZMod.intCast_mod]
    have hy : Fe.residue (Fin.ofNat p n) = ((n : Nat) : ZMod p) := ZMod.natCast_mod _ _
    have hone := congrArg (fun z : Int => (z : ZMod p)) hbezout
    simp only [Int.cast_add, Int.cast_mul, Int.cast_natCast, ZMod.natCast_self, zero_mul, add_zero,
      Int.cast_one] at hone
    rw [hy, hcast]
    exact hone
  · exact absurd hn (by simp)

/-! ## §4. Valid points -/

namespace AffinePoint

/-- The point that the coordinates stand for. -/
def residues (point : AffinePoint) : Option (ZMod p × ZMod p) :=
  point.coords.map fun (x, y) => (residue x, residue y)

/-- Infinity, or a point of the curve with coordinates below `p`. -/
structure Valid (point : AffinePoint) : Prop where
  canonical : ∀ x y, point.coords = some (x, y) → x.toNat < p ∧ y.toNat < p
  onCurve : point.isOnCurve = true

theorem isOnCurve_some {x y : U384} :
    isOnCurve ⟨some (x, y)⟩ = true ↔ brainpoolP384r1.Equation (residue x) (residue y) := by
  have hretrieve {u v : Fe} : retrieve u = retrieve v ↔ Fe.residue u = Fe.residue v := by
    constructor
    · intro h
      rw [← residue_retrieve, ← residue_retrieve, h]
    · intro h
      rw [Fe.residue_injective h]
  unfold isOnCurve ShortWeierstrass.Equation
  simp only [decide_eq_true_eq, hretrieve, residue_add, residue_mul, residue_fe, residue_feA,
    residue_feB]

theorem valid_infinity : infinity.Valid := by
  refine ⟨?_, rfl⟩
  intro x y h
  exact absurd h (by simp [infinity])

theorem Valid.equation {x y : U384} (h : Valid ⟨some (x, y)⟩) :
    brainpoolP384r1.Equation (residue x) (residue y) := isOnCurve_some.mp h.onCurve

theorem valid_of_equation {x y : U384} (hx : x.toNat < p) (hy : y.toNat < p)
    (h : brainpoolP384r1.Equation (residue x) (residue y)) : Valid ⟨some (x, y)⟩ := by
  refine ⟨?_, isOnCurve_some.mpr h⟩
  intro x' y' heq
  obtain ⟨rfl, rfl⟩ := Prod.mk.inj (Option.some.inj heq)
  exact ⟨hx, hy⟩

/-- Coordinates that were just computed are canonical. -/
theorem valid_retrieve {x y : Fe}
    (h : brainpoolP384r1.Equation (Fe.residue x) (Fe.residue y)) :
    Valid ⟨some (retrieve x, retrieve y)⟩ := by
  apply valid_of_equation
  · rw [toNat_retrieve]
    exact x.isLt
  · rw [toNat_retrieve]
    exact y.isLt
  · rw [residue_retrieve, residue_retrieve]
    exact h

/-! ## §5. The operations keep points valid -/

theorem neg_valid {point : AffinePoint} (h : point.Valid) : point.neg.Valid := by
  obtain ⟨_ | ⟨x, y⟩⟩ := point
  · exact valid_infinity
  · have hy : Fe.residue (-fe y) = -residue y := by rw [residue_neg, residue_fe]
    apply valid_of_equation (h.canonical x y rfl).1
    · rw [toNat_retrieve]
      exact (-fe y).isLt
    · rw [residue_retrieve, hy]
      exact ShortWeierstrass.neg_equation h.equation

/-- What doubling computes, in residues. -/
theorem double_cases {x y : U384} :
    (invert (fe y + fe y) = none ∧ double ⟨some (x, y)⟩ = infinity) ∨
      ∃ (i : ZMod p) (x₃ y₃ : Fe), (residue y + residue y) * i = 1 ∧
        double ⟨some (x, y)⟩ = ⟨some (retrieve x₃, retrieve y₃)⟩ ∧
        Fe.residue x₃ = ShortWeierstrass.thirdX
          ((3 * (residue x * residue x) + brainpoolP384r1.a) * i) (residue x) (residue x) ∧
        Fe.residue y₃ = ShortWeierstrass.thirdY
          ((3 * (residue x * residue x) + brainpoolP384r1.a) * i) (residue x) (residue y)
            (Fe.residue x₃) := by
  unfold double
  cases hinvert : invert (fe y + fe y) with
  | none => exact .inl ⟨rfl, by simp only [hinvert]⟩
  | some i =>
    refine .inr ⟨Fe.residue i, _, _, ?_, by simp only [hinvert]; rfl, ?_, ?_⟩
    · have hone := invert_some hinvert
      rwa [residue_add, residue_fe] at hone
    · simp only [residue_sub, residue_mul, residue_add, residue_fe, residue_feThree, residue_feA,
        ShortWeierstrass.thirdX]
      ring
    · simp only [residue_sub, residue_mul, residue_add, residue_fe, residue_feThree, residue_feA,
        ShortWeierstrass.thirdY]
      ring

theorem double_valid {point : AffinePoint} (h : point.Valid) : point.double.Valid := by
  obtain ⟨_ | ⟨x, y⟩⟩ := point
  · exact valid_infinity
  · obtain ⟨-, hnone⟩ | ⟨i, x₃, y₃, hi, hdouble, hx₃, hy₃⟩ := @double_cases x y
    · rw [hnone]
      exact valid_infinity
    · rw [hdouble]
      apply valid_retrieve
      rw [hy₃, hx₃]
      exact ShortWeierstrass.tangent_equation h.equation hi

/-- What the sum of two points with different abscissae is, in residues. -/
theorem add_cases {x₁ y₁ x₂ y₂ : U384} (hne : x₁ ≠ x₂) :
    (invert (fe x₂ - fe x₁) = none ∧ add ⟨some (x₁, y₁)⟩ ⟨some (x₂, y₂)⟩ = infinity) ∨
      ∃ (i : ZMod p) (x₃ y₃ : Fe), (residue x₂ - residue x₁) * i = 1 ∧
        add ⟨some (x₁, y₁)⟩ ⟨some (x₂, y₂)⟩ = ⟨some (retrieve x₃, retrieve y₃)⟩ ∧
        Fe.residue x₃ = ShortWeierstrass.thirdX ((residue y₂ - residue y₁) * i) (residue x₁)
          (residue x₂) ∧
        Fe.residue y₃ = ShortWeierstrass.thirdY ((residue y₂ - residue y₁) * i) (residue x₁)
          (residue y₁) (Fe.residue x₃) := by
  unfold add
  simp only [if_neg hne]
  cases hinvert : invert (fe x₂ - fe x₁) with
  | none => exact .inl ⟨rfl, rfl⟩
  | some i =>
    refine .inr ⟨Fe.residue i, _, _, ?_, rfl, ?_, ?_⟩
    · have hone := invert_some hinvert
      rwa [residue_sub, residue_fe, residue_fe] at hone
    · simp only [residue_sub, residue_mul, residue_fe, ShortWeierstrass.thirdX]
    · simp only [residue_sub, residue_mul, residue_fe, ShortWeierstrass.thirdY]

theorem add_valid {point other : AffinePoint} (h₁ : point.Valid) (h₂ : other.Valid) :
    (point.add other).Valid := by
  obtain ⟨_ | ⟨x₁, y₁⟩⟩ := point
  · exact h₂
  obtain ⟨_ | ⟨x₂, y₂⟩⟩ := other
  · exact h₁
  by_cases hx : x₁ = x₂
  · subst hx
    by_cases hy : y₁ = y₂
    · subst hy
      have hsame : add ⟨some (x₁, y₁)⟩ ⟨some (x₁, y₁)⟩ = double ⟨some (x₁, y₁)⟩ := by simp [add]
      rw [hsame]
      exact double_valid h₁
    · have hopposite : add ⟨some (x₁, y₁)⟩ ⟨some (x₁, y₂)⟩ = infinity := by simp [add, hy]
      rw [hopposite]
      exact valid_infinity
  · obtain ⟨-, hnone⟩ | ⟨i, x₃, y₃, hi, hadd, hx₃, hy₃⟩ := @add_cases x₁ y₁ x₂ y₂ hx
    · rw [hnone]
      exact valid_infinity
    · rw [hadd]
      apply valid_retrieve
      rw [hy₃, hx₃]
      exact ShortWeierstrass.chord_equation h₁.equation h₂.equation hi

theorem scalarBit_idle (point result : AffinePoint) (byte : UInt8) (i : Nat) :
    scalarBit point byte (result, false) i =
      if byte.toNat >>> i &&& 1 = 1 then (point, true) else (result, false) := rfl

theorem scalarBit_started (point result : AffinePoint) (byte : UInt8) (i : Nat) :
    scalarBit point byte (result, true) i =
      if byte.toNat >>> i &&& 1 = 1 then (result.double.add point, true)
      else (result.double, true) := rfl

/-- The bits of an octet, from the highest down. -/
theorem octet_bits (byte : UInt8) (v : Nat) :
    [7, 6, 5, 4, 3, 2, 1, 0].foldl (fun v i => 2 * v + (byte.toNat >>> i &&& 1)) v =
      v * 256 + byte.toNat := by
  have hbits : ∀ n < 256, 128 * (n >>> 7 &&& 1) + 64 * (n >>> 6 &&& 1) + 32 * (n >>> 5 &&& 1) +
      16 * (n >>> 4 &&& 1) + 8 * (n >>> 3 &&& 1) + 4 * (n >>> 2 &&& 1) + 2 * (n >>> 1 &&& 1) +
      (n >>> 0 &&& 1) = n := by decide +kernel
  have hn := hbits byte.toNat byte.toNat_lt
  simp only [List.foldl_cons, List.foldl_nil]
  omega

section
variable {point : AffinePoint} {I : Nat → AffinePoint × Bool → Prop}

/-- What a bit preserves, an octet preserves. -/
theorem scalarByte_keeps
    (hstep : ∀ v s (byte : UInt8) i, I v s →
      I (2 * v + (byte.toNat >>> i &&& 1)) (scalarBit point byte s i))
    (byte : UInt8) {v : Nat} {s : AffinePoint × Bool} (h : I v s) :
    I (v * 256 + byte.toNat) (scalarByte point s byte) := by
  have hfold (indices : List Nat) {v : Nat} {s : AffinePoint × Bool} (h : I v s) :
      I (indices.foldl (fun v i => 2 * v + (byte.toNat >>> i &&& 1)) v)
        (indices.foldl (scalarBit point byte) s) := by
    induction indices generalizing v s with
    | nil => exact h
    | cons i indices ih => exact ih (hstep v s byte i h)
  have hoctet := hfold [7, 6, 5, 4, 3, 2, 1, 0] h
  rwa [octet_bits] at hoctet

/-- **The loop of `scalar_mul`**: what every bit preserves holds at the end, of the whole
    scalar. -/
theorem scalarMul_keeps (hstart : I 0 (infinity, false))
    (hstep : ∀ v s (byte : UInt8) i, I v s →
      I (2 * v + (byte.toNat >>> i &&& 1)) (scalarBit point byte s i)) (scalar : U384) :
    ∃ started, I scalar.toNat (point.scalarMul scalar, started) := by
  have hfold (bytes : Bytes) {v : Nat} {s : AffinePoint × Bool} (h : I v s) :
      I (v * 256 ^ bytes.length + beValue bytes) (bytes.foldl (scalarByte point) s) := by
    induction bytes generalizing v s with
    | nil => simpa [beValue] using h
    | cons byte bytes ih =>
      have hrest := ih (scalarByte_keeps hstep byte h)
      have hvalue : (v * 256 + byte.toNat) * 256 ^ bytes.length + beValue bytes =
          v * 256 ^ (byte :: bytes).length + beValue (byte :: bytes) := by
        rw [beValue_cons, List.length_cons]
        ring
      rwa [hvalue] at hrest
  have hall := hfold (octets 48 scalar.toNat) hstart
  have hfits : scalar.toNat % 256 ^ 48 = scalar.toNat := Nat.mod_eq_of_lt (toNat_lt scalar)
  rw [Nat.zero_mul, Nat.zero_add, beValue_octets, hfits] at hall
  exact ⟨_, hall⟩

end

theorem scalarMul_valid {point : AffinePoint} (h : point.Valid) (scalar : U384) :
    (point.scalarMul scalar).Valid := by
  have hstep : ∀ (v : Nat) (s : AffinePoint × Bool) (byte : UInt8) i, s.1.Valid →
      (scalarBit point byte s i).1.Valid := by
    intro v s byte i hs
    obtain ⟨result, _ | _⟩ := s
    · rw [scalarBit_idle]
      split
      · exact h
      · exact hs
    · rw [scalarBit_started]
      split
      · exact add_valid (double_valid hs) h
      · exact double_valid hs
  obtain ⟨_, hvalid⟩ := @scalarMul_keeps point (fun _ s => s.1.Valid) valid_infinity hstep scalar
  exact hvalid

/-! ## §6. Encodings -/

/-- Both coordinates of an encoding are below `p`. -/
def CoordinatesBelow (bytes : Bytes) : Prop :=
  beValue ((bytes.drop 1).take 48) < p ∧ beValue ((bytes.drop 49).take 48) < p

theorem toNat_fromBeSlice {bytes : Bytes} (h : bytes.length = 48) :
    (fromBeSlice bytes).toNat = beValue bytes := by
  have hlt : beValue bytes < 2 ^ 384 := by
    calc beValue bytes < 256 ^ 48 := h ▸ beValue_lt bytes
      _ = 2 ^ 384 := by rw [show (256 : Nat) = 2 ^ 8 from rfl, ← pow_mul]
  simp only [fromBeSlice, BitVec.toNat_ofNat, Nat.mod_eq_of_lt hlt]

theorem decodeUncompressed_eq_some {bytes : Bytes} {point : AffinePoint} :
    decodeUncompressed bytes = some point ↔
      (∃ xs ys : Bytes, xs.length = 48 ∧ ys.length = 48 ∧ bytes = 0x04 :: (xs ++ ys) ∧
        point = ⟨some (fromBeSlice xs, fromBeSlice ys)⟩) ∧ point.isOnCurve = true := by
  unfold decodeUncompressed
  constructor
  · intro h
    split at h
    · next hshape =>
      obtain ⟨hlen, hhead⟩ := hshape
      dsimp only at h
      split at h
      · next hcurve =>
        obtain rfl := Option.some.inj h
        refine ⟨⟨(bytes.drop 1).take 48, (bytes.drop 49).take 48, ?_, ?_, ?_, rfl⟩, hcurve⟩
        · rw [List.length_take, List.length_drop]
          omega
        · rw [List.length_take, List.length_drop]
          omega
        · cases bytes with
          | nil => simp at hlen
          | cons tag body =>
            obtain rfl : tag = 0x04 := by simpa using hhead
            have hbody : body.length = 96 := by simpa using hlen
            have htake : (body.drop 48).take 48 = body.drop 48 := by
              apply List.take_of_length_le
              rw [List.length_drop]
              omega
            simp only [List.drop_succ_cons, List.drop_zero, htake, List.take_append_drop]
      · exact absurd h (by simp)
    · exact absurd h (by simp)
  · intro h
    obtain ⟨⟨xs, ys, hxs, hys, rfl, rfl⟩, hcurve⟩ := h
    have htake : (xs ++ ys).take 48 = xs := by rw [← hxs, List.take_left]
    have hdrop : (xs ++ ys).drop 48 = ys := by rw [← hxs, List.drop_left]
    have hys' : ys.take 48 = ys := List.take_of_length_le (by omega)
    have hlen : (0x04 :: (xs ++ ys) : Bytes).length = 97 := by simp [hxs, hys]
    simp only [hlen, List.head?_cons, and_self, if_true, List.drop_succ_cons, List.drop_zero, htake,
      hdrop, hys', hcurve]

/-- **Encoding undoes decoding.** -/
theorem encode_of_decode {bytes : Bytes} {point : AffinePoint}
    (h : decodeUncompressed bytes = some point) : point.encodeUncompressed = some bytes := by
  obtain ⟨⟨xs, ys, hxs, hys, rfl, rfl⟩, -⟩ := decodeUncompressed_eq_some.mp h
  simp only [encodeUncompressed, Option.map_some, toNat_fromBeSlice hxs, toNat_fromBeSlice hys,
    octets_beValue hxs, octets_beValue hys]

/-- The octets of a coordinate are read back. -/
theorem fromBeSlice_octets (x : U384) : fromBeSlice (octets 48 x.toNat) = x := by
  apply BitVec.eq_of_toNat_eq
  rw [toNat_fromBeSlice (octets_length _ _), beValue_octets, Nat.mod_eq_of_lt (toNat_lt x)]

theorem decode_of_encode {bytes : Bytes} {point : AffinePoint} (hvalid : point.Valid)
    (h : point.encodeUncompressed = some bytes) : decodeUncompressed bytes = some point := by
  obtain ⟨⟨x, y⟩, hcoords, rfl⟩ := Option.map_eq_some_iff.mp h
  refine decodeUncompressed_eq_some.mpr ⟨⟨_, _, octets_length _ _, octets_length _ _, rfl, ?_⟩,
    hvalid.onCurve⟩
  rw [fromBeSlice_octets, fromBeSlice_octets, ← hcoords]

/-- **What decoding lets in** is a valid point when both coordinates are below `p`. -/
theorem decodeUncompressed_valid_iff {bytes : Bytes} {point : AffinePoint}
    (h : decodeUncompressed bytes = some point) : point.Valid ↔ CoordinatesBelow bytes := by
  obtain ⟨⟨xs, ys, hxs, hys, rfl, rfl⟩, hcurve⟩ := decodeUncompressed_eq_some.mp h
  have htake : (xs ++ ys).take 48 = xs := by rw [← hxs, List.take_left]
  have hdrop : (xs ++ ys).drop 48 = ys := by rw [← hxs, List.drop_left]
  have hys' : ys.take 48 = ys := List.take_of_length_le (by omega)
  simp only [CoordinatesBelow, List.drop_succ_cons, List.drop_zero, htake, hdrop, hys']
  rw [← toNat_fromBeSlice hxs, ← toNat_fromBeSlice hys]
  constructor
  · intro hvalid
    exact hvalid.canonical _ _ rfl
  · intro hbelow
    exact valid_of_equation hbelow.1 hbelow.2 (isOnCurve_some.mp hcurve)

/-! ## §7. Runs of the operations -/

/-- The points that a run can hold: the generator, what is decoded from octets that are
    `Let`, and what the operations make of these. -/
inductive Obtained (Let : Bytes → Prop) : AffinePoint → Prop
  | generator : Obtained Let generator
  | decoded {bytes : Bytes} {point : AffinePoint} (hlet : Let bytes)
      (h : decodeUncompressed bytes = some point) : Obtained Let point
  | neg {point : AffinePoint} (h : Obtained Let point) : Obtained Let point.neg
  | double {point : AffinePoint} (h : Obtained Let point) : Obtained Let point.double
  | add {point other : AffinePoint} (h₁ : Obtained Let point) (h₂ : Obtained Let other) :
      Obtained Let (point.add other)
  | scalarMul {point : AffinePoint} (h : Obtained Let point) (scalar : U384) :
      Obtained Let (point.scalarMul scalar)

theorem generator_valid : generator.Valid := by
  refine ⟨?_, by decide +kernel⟩
  intro x y h
  obtain ⟨rfl, rfl⟩ := Prod.mk.inj (Option.some.inj h)
  decide +kernel

/-- A run that only decodes coordinates below `p` holds valid points only. -/
theorem Obtained.valid {point : AffinePoint} (h : Obtained CoordinatesBelow point) :
    point.Valid := by
  induction h with
  | generator => exact generator_valid
  | decoded hlet h => exact (decodeUncompressed_valid_iff h).mpr hlet
  | neg _ ih => exact neg_valid ih
  | double _ ih => exact double_valid ih
  | add _ _ ih₁ ih₂ => exact add_valid ih₁ ih₂
  | scalarMul _ scalar ih => exact scalarMul_valid ih scalar

/-- Numbers below `p` are told apart by their residues. -/
theorem residue_inj {x y : U384} (hx : x.toNat < p) (hy : y.toNat < p)
    (h : residue x = residue y) : x = y := by
  have hmod := (ZMod.natCast_eq_natCast_iff' _ _ _).mp h
  rw [Nat.mod_eq_of_lt hx, Nat.mod_eq_of_lt hy] at hmod
  exact BitVec.eq_of_toNat_eq hmod

theorem valid_eq_iff {point other : AffinePoint} (h₁ : point.Valid) (h₂ : other.Valid) :
    point = other ↔ point.residues = other.residues := by
  constructor
  · intro h
    rw [h]
  · intro h
    obtain ⟨_ | ⟨x₁, y₁⟩⟩ := point
    · obtain ⟨_ | ⟨x₂, y₂⟩⟩ := other
      · rfl
      · exact absurd h (by simp [residues])
    · obtain ⟨_ | ⟨x₂, y₂⟩⟩ := other
      · exact absurd h (by simp [residues])
      · obtain ⟨hx, hy⟩ := Prod.mk.inj (Option.some.inj h)
        obtain ⟨hx₁, hy₁⟩ := h₁.canonical _ _ rfl
        obtain ⟨hx₂, hy₂⟩ := h₂.canonical _ _ rfl
        rw [residue_inj hx₁ hx₂ hx, residue_inj hy₁ hy₂ hy]

/-- **Canonicality**: in a run that only decodes coordinates below `p`, every point is valid,
    equal points are equal curve points, and a point has one encoding.  Decoding other
    coordinates makes a point that is not valid. -/
theorem obtained_canonical {point other : AffinePoint} (h₁ : Obtained CoordinatesBelow point)
    (h₂ : Obtained CoordinatesBelow other) (bytes : Bytes) :
    point.Valid ∧ (point = other ↔ point.residues = other.residues) ∧
      (decodeUncompressed bytes = some point ↔ point.encodeUncompressed = some bytes) ∧
      ∀ decoded, decodeUncompressed bytes = some decoded →
        decoded.encodeUncompressed = some bytes ∧ (decoded.Valid ↔ CoordinatesBelow bytes) := by
  refine ⟨h₁.valid, valid_eq_iff h₁.valid h₂.valid, ⟨encode_of_decode, decode_of_encode h₁.valid⟩,
    fun decoded h => ⟨encode_of_decode h, decodeUncompressed_valid_iff h⟩⟩

/-- The coordinates of the generator's double, and its octets. -/
def doubleX : Nat := 0x2282BC382A2F4DFCB95C3495D7B4FD590AD520B3EB6BE4D6EC2F80C4E0F70DF87C4BA74A09B553EBB427B58DF9D59FCA

def doubleY : Nat := 0x0EDDA83773AC68735768D14A24F37A57CE9BEDBC170921CE4D89DD051728FC3EB4B4EA69AB64FC288F1B29502B6E1D30

def doubleOctets : Bytes := 0x04 :: (octets 48 doubleX ++ octets 48 doubleY)

/-- The double, decoded and computed. -/
theorem generator_canonical :
    ∃ decoded, decodeUncompressed doubleOctets = some decoded ∧ decoded.Valid ∧
      decoded.encodeUncompressed = some doubleOctets ∧
      (decoded = generator.add generator ↔
        decoded.residues = (generator.add generator).residues) := by
  have hlet : CoordinatesBelow doubleOctets := ⟨by decide +kernel, by decide +kernel⟩
  have hdecode : decodeUncompressed doubleOctets =
      some ⟨some (BitVec.ofNat 384 doubleX, BitVec.ofNat 384 doubleY)⟩ := by decide +kernel
  obtain ⟨hvalid, hequal, hencode, -⟩ := obtained_canonical (.decoded hlet hdecode)
    (.add .generator .generator) doubleOctets
  exact ⟨_, hdecode, hvalid, hencode.mp hdecode, hequal⟩

/-- The generator's abscissa with `p` added: the same curve point in other octets. -/
def shiftedGenerator : Bytes := 0x04 :: (octets 48 (gX.toNat + p) ++ octets 48 gY.toNat)

def shiftedPoint : AffinePoint := ⟨some (BitVec.ofNat 384 (gX.toNat + p), gY)⟩

/-- It is decoded, to a point that is not the generator; added to the generator it gives
    infinity and not the double. -/
theorem shiftedGenerator_not_canonical :
    decodeUncompressed shiftedGenerator = some shiftedPoint ∧
      Obtained (fun _ => True) shiftedPoint ∧ ¬ shiftedPoint.Valid ∧
      shiftedPoint ≠ generator ∧ shiftedPoint.residues = generator.residues ∧
      shiftedPoint.add generator ≠ generator.double := by
  have hdecode : decodeUncompressed shiftedGenerator = some shiftedPoint := by decide +kernel
  have hx : residue (BitVec.ofNat 384 (gX.toNat + p)) = residue gX := by
    refine (ZMod.natCast_eq_natCast_iff' _ _ _).mpr ?_
    decide +kernel
  refine ⟨hdecode, .decoded trivial hdecode, ?_, by decide +kernel, ?_, by decide +kernel⟩
  · intro hvalid
    have hbelow := (hvalid.canonical _ _ rfl).1
    revert hbelow
    decide +kernel
  · show some (residue (BitVec.ofNat 384 (gX.toNat + p)), residue gY) = some (residue gX, residue gY)
    rw [hx]

end AffinePoint

end Brainpool

end RefineId
