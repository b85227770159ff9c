/-
  RefineId.EcdsaScalars — the two conversions to a scalar of ECDSA.
  ════════════════════════════════════════════════════════════════════════════

  `digest_to_scalar` and `bytes_into_n` of `crates/refineid-lib-core/src/crypto/ecdsa.rs`, and
  the same text in `crates/refineid-doc-sign/src/ecdsa.rs`.

  The shift of a digest is meant for one that is cut inside an octet, and is made whenever the
  order has bits that do not fill one: a digest shorter than the order is shifted as well.  One
  subtraction reduces a field element that is less than twice the order, and explicit
  parameters can have a smaller order than that.

  Main results:
    • `digestToScalar_eq`   : what the loop over the octets computes.
    • `conversions_exact`   : when the two conversions are those of the standard, and that
                              the verifier is then the standard's.
-/
import RefineId.Ecdsa

namespace RefineId

open Ber Lib

namespace CurveCtx

/-! ## §1. The standard -/

/-- The integer of the leftmost bits of a digest, `bits` of them or all there are. -/
def leftmostBits (bits : Nat) (digest : Bytes) : Nat :=
  beValue digest / 2 ^ (8 * digest.length - bits)

/-- What a digest needs so that its scalar is the standard's: octets that the bits of the order
    fill, or enough octets, or zeros. -/
def DigestFits (ctx : CurveCtx) (digest : Bytes) : Prop :=
  Nat.size ctx.n % 8 = 0 ∨ Nat.size ctx.n ≤ 8 * digest.length ∨ beValue digest = 0

/-- What a field element needs so that one subtraction reduces it: less than twice the order,
    and no more bits than the order's precision. -/
def ElementFits (ctx : CurveCtx) (x : Nat) : Prop := x < 2 * ctx.n ∧ x < 2 ^ ctx.bitsN

/-! ## §2. The digest -/

theorem shiftBuffer_length (k : Nat) (carry : UInt8) (buf : Bytes) :
    (shiftBuffer k carry buf).length = buf.length := by
  induction buf generalizing carry with
  | nil => rfl
  | cons b bs ih => exact congrArg (· + 1) (ih _)

section
variable {k : Nat} {carry b : UInt8}

/-- The octet that is written: the carry in front of the octet that was there. -/
theorem written_octet (hk : k ≤ 8) (hcarry : carry.toNat < 2 ^ k) :
    (UInt8.ofNat (b.toNat >>> k ||| (carry.toNat <<< (8 - k)) % 256)).toNat =
      (carry.toNat * 256 + b.toNat) / 2 ^ k := by
  have hb : b.toNat < 256 := b.toNat_lt
  have hradix : 2 ^ (8 - k) * 2 ^ k = 256 := by
    rw [← pow_add, Nat.sub_add_cancel hk]
    rfl
  have hhigh : carry.toNat <<< (8 - k) < 256 := by
    rw [Nat.shiftLeft_eq]
    calc carry.toNat * 2 ^ (8 - k) < 2 ^ k * 2 ^ (8 - k) :=
          Nat.mul_lt_mul_of_pos_right hcarry (Nat.two_pow_pos _)
      _ = 256 := by rw [Nat.mul_comm, hradix]
  have hlow : b.toNat >>> k < 2 ^ (8 - k) := by
    rw [Nat.shiftRight_eq_div_pow, Nat.div_lt_iff_lt_mul (Nat.two_pow_pos _), hradix]
    exact hb
  -- the two parts share no bit
  have hparts : b.toNat >>> k ||| carry.toNat <<< (8 - k) =
      (carry.toNat * 256 + b.toNat) / 2 ^ k := by
    have hmul : carry.toNat * 256 = carry.toNat * 2 ^ (8 - k) * 2 ^ k := by
      rw [Nat.mul_assoc, hradix]
    rw [Nat.or_comm, ← Nat.shiftLeft_add_eq_or_of_lt hlow, Nat.shiftLeft_eq,
      Nat.shiftRight_eq_div_pow, hmul, Nat.add_comm _ b.toNat,
      Nat.add_mul_div_right _ _ (Nat.two_pow_pos k), Nat.add_comm]
  have hfits : (carry.toNat * 256 + b.toNat) / 2 ^ k < 256 := by
    rw [Nat.div_lt_iff_lt_mul (Nat.two_pow_pos _)]
    have hcarry' := Nat.mul_le_mul_right 256 (Nat.succ_le_of_lt hcarry)
    omega
  rw [Nat.mod_eq_of_lt hhigh, hparts]
  exact Nat.mod_eq_of_lt hfits

/-- The bits that are carried on. -/
theorem carried_octet (hk : k ≤ 8) :
    (UInt8.ofNat (b.toNat &&& (2 ^ k - 1))).toNat = (carry.toNat * 256 + b.toNat) % 2 ^ k := by
  have hb : b.toNat < 256 := b.toNat_lt
  have hle : b.toNat &&& (2 ^ k - 1) ≤ b.toNat := Nat.and_le_left
  have hmul : carry.toNat * 256 = carry.toNat * 2 ^ (8 - k) * 2 ^ k := by
    rw [Nat.mul_assoc, ← pow_add, Nat.sub_add_cancel hk]
    rfl
  rw [hmul, Nat.add_comm _ b.toNat, Nat.add_mul_mod_self_right, ← Nat.and_two_pow_sub_one_eq_mod]
  exact Nat.mod_eq_of_lt (by omega)

end

/-- **The loop over the octets** shifts the number they hold, the carry in front of it. -/
theorem beValue_shiftBuffer {k : Nat} (hk : k ≤ 8) {carry : UInt8} (hcarry : carry.toNat < 2 ^ k)
    (buf : Bytes) : beValue (shiftBuffer k carry buf) =
      (carry.toNat * 256 ^ buf.length + beValue buf) / 2 ^ k := by
  induction buf generalizing carry with
  | nil => simp [shiftBuffer, beValue, Nat.div_eq_of_lt hcarry]
  | cons b bs ih =>
    have hcarried : (UInt8.ofNat (b.toNat &&& (2 ^ k - 1))).toNat =
        (carry.toNat * 256 + b.toNat) % 2 ^ k := carried_octet hk
    have hnext : (UInt8.ofNat (b.toNat &&& (2 ^ k - 1))).toNat < 2 ^ k := by
      rw [hcarried]
      exact Nat.mod_lt _ (Nat.two_pow_pos k)
    rw [shiftBuffer, beValue_cons, shiftBuffer_length, written_octet hk hcarry, ih hnext, hcarried,
      beValue_cons, List.length_cons, pow_succ]
    -- the carry and the octet split into what is written and what is carried on
    have hsplit := Nat.div_add_mod (carry.toNat * 256 + b.toNat) (2 ^ k)
    generalize (carry.toNat * 256 + b.toNat) / 2 ^ k = q at *
    generalize (carry.toNat * 256 + b.toNat) % 2 ^ k = r at *
    have hvalue : carry.toNat * (256 ^ bs.length * 256) +
          (b.toNat * 256 ^ bs.length + beValue bs) =
        r * 256 ^ bs.length + beValue bs + q * 256 ^ bs.length * 2 ^ k := by
      calc carry.toNat * (256 ^ bs.length * 256) + (b.toNat * 256 ^ bs.length + beValue bs)
          = (carry.toNat * 256 + b.toNat) * 256 ^ bs.length + beValue bs := by ring
        _ = r * 256 ^ bs.length + beValue bs + q * 256 ^ bs.length * 2 ^ k := by
          rw [← hsplit]
          ring
    rw [hvalue, Nat.add_mul_div_right _ _ (Nat.two_pow_pos k), Nat.add_comm]

/-! ## §3. The context of a curve -/

/-- What the conversions need of a context: an odd order that its precision holds, and a
    precision of whole octets. -/
structure Sized (ctx : CurveCtx) : Prop where
  n_odd : ctx.n % 2 = 1
  p_odd : ctx.p % 2 = 1
  size_le : Nat.size ctx.n ≤ ctx.bitsN
  octets : ctx.bitsN % 8 = 0

theorem bitsForLen_eq_ok {byteLen bits : Nat} (h : bitsForLen byteLen = .ok bits) :
    bits % 8 = 0 := by
  unfold bitsForLen at h
  dsimp only at h
  split at h
  · injection h with h
    subst h
    unfold limbPrecision
    omega
  · exact absurd h (by simp)

theorem boxed_eq_ok {bytes : Bytes} {bits n : Nat} :
    boxed bytes bits = .ok n ↔ bytes.length * 8 ≤ bits ∧ beValue bytes = n := by
  simp only [boxed, okOr_eq_ok, fromBeSlice]
  split <;> simp_all

/-- What a context is made of. -/
theorem new_eq_ok {curve : Curve} {ctx : CurveCtx} (h : CurveCtx.new curve = .ok ctx) :
    ctx.Sized ∧ ctx.g = some (beValue curve.gx, beValue curve.gy) := by
  simp only [CurveCtx.new, bind_eq_ok, ensure_eq_ok, boxed_eq_ok, decide_eq_true_eq,
    exists_const] at h
  obtain ⟨bitsP, hbitsP, bitsN, hbitsN, p, ⟨-, hp⟩, n, ⟨hnFits, hn⟩, a, -, b, -, gx, ⟨-, rfl⟩, gy,
    ⟨-, rfl⟩, hpOdd, hnOdd, hctx⟩ := h
  obtain rfl := Except.ok.inj hctx
  refine ⟨⟨hnOdd, hpOdd, ?_, bitsForLen_eq_ok hbitsN⟩, rfl⟩
  refine le_trans (Nat.size_le.mpr ?_) hnFits
  subst hn
  calc beValue curve.n < 256 ^ curve.n.length := beValue_lt curve.n
    _ = 2 ^ (curve.n.length * 8) := by rw [Nat.mul_comm, pow_mul]; rfl

section
variable {ctx : CurveCtx}

/-- **What `digest_to_scalar` computes**: the number of the octets it takes, shifted by the bits
    that the order leaves of its last octet. -/
theorem digestToScalar_eq (hctx : ctx.Sized) (digest : Bytes) :
    ctx.digestToScalar digest =
      beValue (digest.take ((Nat.size ctx.n + 7) / 8)) / 2 ^ ((8 - Nat.size ctx.n % 8) % 8) := by
  have hsize := hctx.size_le
  have hoctets := hctx.octets
  have htake : digest.take (min digest.length ((Nat.size ctx.n + 7) / 8)) =
      digest.take ((Nat.size ctx.n + 7) / 8) := by
    rw [Nat.min_comm, ← List.take_take, List.take_length]
  have hlen : (digest.take ((Nat.size ctx.n + 7) / 8)).length * 8 ≤ ctx.bitsN := by
    rw [List.length_take]
    omega
  have hzero : (0 : UInt8).toNat < 2 ^ ((8 - Nat.size ctx.n % 8) % 8) := Nat.two_pow_pos _
  unfold digestToScalar
  simp only [htake]
  by_cases hextra : (8 - Nat.size ctx.n % 8) % 8 = 0
  · rw [if_neg (by simpa using hextra), fromBeSlice, if_pos hlen, hextra, pow_zero, Nat.div_one]
    rfl
  · rw [if_pos hextra, fromBeSlice, shiftBuffer_length, if_pos hlen, Option.getD_some,
      beValue_shiftBuffer (by omega) hzero]
    simp

theorem digestToScalar_leftmost (hctx : ctx.Sized) (digest : Bytes) :
    ctx.digestToScalar digest = leftmostBits (Nat.size ctx.n) digest ↔ ctx.DigestFits digest := by
  rw [digestToScalar_eq hctx, leftmostBits, DigestFits]
  by_cases hlong : (Nat.size ctx.n + 7) / 8 ≤ digest.length
  · -- cut at the octet, then at the bit
    have hcut : 256 ^ (digest.length - (Nat.size ctx.n + 7) / 8) *
        2 ^ ((8 - Nat.size ctx.n % 8) % 8) = 2 ^ (8 * digest.length - Nat.size ctx.n) := by
      rw [show (256 : Nat) = 2 ^ 8 from rfl, ← pow_mul, ← pow_add]
      congr 1
      omega
    rw [beValue_take, Nat.div_div_eq_div_mul, hcut]
    simp only [true_iff]
    omega
  · have hshort : digest.length ≤ (Nat.size ctx.n + 7) / 8 := by omega
    have hbits : 8 * digest.length - Nat.size ctx.n = 0 := by omega
    rw [List.take_of_length_le hshort, hbits, pow_zero, Nat.div_one]
    constructor
    · intro h
      by_cases hextra : Nat.size ctx.n % 8 = 0
      · exact .inl hextra
      · -- a shift leaves only zero as it was
        right
        right
        by_contra hvalue
        have hshift : 1 < 2 ^ ((8 - Nat.size ctx.n % 8) % 8) :=
          Nat.one_lt_two_pow (by omega)
        exact absurd h (Nat.div_lt_self (Nat.pos_of_ne_zero hvalue) hshift).ne
    · intro h
      obtain h | h | h := h
      · rw [h]
        exact Nat.div_one _
      · omega
      · rw [h, Nat.zero_div]

/-! ## §4. The field element -/

theorem bytesIntoN_eq_iff (hctx : ctx.Sized) (x : Nat) :
    ctx.bytesIntoN x = .ok (x % ctx.n) ↔ ctx.ElementFits x := by
  have hpos : 0 < ctx.n := by
    have := hctx.n_odd
    omega
  have hsize : Nat.size x ≤ ctx.bitsN ↔ x < 2 ^ ctx.bitsN := Nat.size_le
  unfold bytesIntoN ElementFits
  split
  · next hfits =>
    simp only [Except.ok.injEq, hsize.mp hfits, and_true]
    split
    · next hle =>
      constructor
      · intro h
        have := Nat.mod_lt x hpos
        omega
      · intro h
        rw [Nat.mod_eq_sub_mod hle, Nat.mod_eq_of_lt (by omega)]
    · next hlt =>
      rw [Nat.mod_eq_of_lt (by omega)]
      simp only [true_iff]
      omega
  · next hfits =>
    simp only [reduceCtorEq, false_iff, not_and]
    exact fun _ h => hfits (hsize.mpr h)

/-- Every element of the field fits when the field is no larger than two orders and than the
    order's precision. -/
theorem elementsFit_iff (hctx : ctx.Sized) :
    (∀ x < ctx.p, ctx.ElementFits x) ↔ ctx.p ≤ 2 * ctx.n ∧ ctx.p ≤ 2 ^ ctx.bitsN := by
  have hpos : 0 < ctx.p := by
    have := hctx.p_odd
    omega
  constructor
  · intro h
    obtain ⟨h₁, h₂⟩ := h (ctx.p - 1) (by omega)
    omega
  · intro h x hx
    exact ⟨by omega, by omega⟩

/-! ## §5. The verifier -/

/-- The abscissa is an element of the field. -/
def InField (ctx : CurveCtx) (point : AffinePoint) : Prop :=
  ∀ x y, point = some (x, y) → x < ctx.p

theorem inField_none : ctx.InField none := by
  intro x y h
  exact absurd h (by simp)

theorem slopePoint_inField (hctx : ctx.Sized) (lambda px py qx : Nat) :
    ctx.InField (ctx.slopePoint lambda px py qx) := by
  intro x y h
  obtain ⟨rfl, -⟩ := Prod.mk.inj (Option.some.inj h)
  have hpos : 0 < ctx.p := by
    have := hctx.p_odd
    omega
  exact Nat.mod_lt _ hpos

theorem double_inField (hctx : ctx.Sized) (point : AffinePoint) :
    ctx.InField (ctx.double point) := by
  unfold double
  repeat' split
  · exact inField_none
  · exact inField_none
  · exact inField_none
  · exact slopePoint_inField hctx _ _ _ _

theorem add_inField (hctx : ctx.Sized) {point other : AffinePoint} (h₁ : ctx.InField point)
    (h₂ : ctx.InField other) : ctx.InField (ctx.add point other) := by
  unfold add
  repeat' split
  · exact h₂
  · exact h₁
  · exact double_inField hctx _
  · exact inField_none
  · exact inField_none
  · exact slopePoint_inField hctx _ _ _ _

theorem scalarMul_inField (hctx : ctx.Sized) (k : Nat) {point : AffinePoint}
    (h : ctx.InField point) : ctx.InField (ctx.scalarMul k point) := by
  cases point with
  | none => exact inField_none
  | some point =>
    -- the sum so far and the doubled point stay in the field
    have hfold (bits : List Nat) : ∀ s : AffinePoint × AffinePoint,
        ctx.InField s.1 → ctx.InField s.2 →
        ctx.InField (bits.foldl (fun (acc, addend) i =>
          (if k.testBit i then ctx.add acc addend else acc, ctx.double addend)) s).1 := by
      induction bits with
      | nil => exact fun _ hacc _ => hacc
      | cons i bits ih =>
        intro s hacc haddend
        refine ih _ ?_ (double_inField hctx _)
        dsimp only
        split
        · exact add_inField hctx hacc haddend
        · exact hacc
    exact hfold _ (none, some point) inField_none h

end

/-- The verifier of the standard: `verify_prehashed` with the leftmost bits of the digest and
    the residue of the abscissa. -/
def verifyStandard (curve : Curve) (pubkey signatureDer messageDigest : Bytes) :
    Except EcdsaError Unit := do
  let ctx ← CurveCtx.new curve
  let q ← parseAffine pubkey ctx.bitsP
  ensure (ctx.isOnCurve q) .badPublicKey
  let (rBytes, sBytes) ← parseEcdsaSignature signatureDer
  let r ← boxed rBytes ctx.bitsN
  let s ← boxed sBytes ctx.bitsN
  ensure (1 ≤ r && r < ctx.n && 1 ≤ s && s < ctx.n) .sigOutOfRange
  let e := leftmostBits (Nat.size ctx.n) messageDigest
  let w ← okOr .notInvertible (invert ctx.n s)
  let pointA := ctx.scalarMul (e * w % ctx.n) ctx.g
  let pointB := ctx.scalarMul (r * w % ctx.n) q
  let (sx, _) ← okOr .verifyFailed (ctx.add pointA pointB)
  ensure (sx % ctx.n = r) .verifyFailed

/-- The final comparison is made with the residue of the abscissa. -/
theorem finalComparison_eq {ctx : CurveCtx} (hctx : ctx.Sized)
    (helement : ∀ x < ctx.p, ctx.ElementFits x) {sum : AffinePoint} (hsum : ctx.InField sum)
    (r : Nat) :
    (do
      let point ← okOr EcdsaError.verifyFailed sum
      let sxN ← ctx.bytesIntoN point.1
      ensure (sxN = r) .verifyFailed) =
    (do
      let point ← okOr EcdsaError.verifyFailed sum
      ensure (point.1 % ctx.n = r) .verifyFailed) := by
  cases sum with
  | none => rfl
  | some point =>
    have hreduced := (bytesIntoN_eq_iff hctx point.1).mpr (helement _ (hsum _ _ rfl))
    show (ctx.bytesIntoN point.1 >>= _) = _
    rw [hreduced]
    rfl

theorem verifyPrehashed_standard {curve : Curve} {ctx : CurveCtx}
    (hnew : CurveCtx.new curve = .ok ctx) {digest : Bytes} (hdigest : ctx.DigestFits digest)
    (helement : ∀ x < ctx.p, ctx.ElementFits x) (hbase : ctx.InField ctx.g) {pubkey : Bytes}
    (hkey : ∀ q, parseAffine pubkey ctx.bitsP = .ok q → ctx.InField q) (signatureDer : Bytes) :
    verifyPrehashed curve pubkey signatureDer digest =
      verifyStandard curve pubkey signatureDer digest := by
  obtain ⟨hctx, -⟩ := new_eq_ok hnew
  have hscalar := (digestToScalar_leftmost hctx digest).mpr hdigest
  unfold verifyPrehashed verifyStandard
  rw [hnew]
  show (parseAffine pubkey ctx.bitsP >>= _) = (parseAffine pubkey ctx.bitsP >>= _)
  cases hq : parseAffine pubkey ctx.bitsP with
  | error e => rfl
  | ok q =>
    have hsum (k l : Nat) : ctx.InField (ctx.add (ctx.scalarMul k ctx.g) (ctx.scalarMul l q)) :=
      add_inField hctx (scalarMul_inField hctx k hbase) (scalarMul_inField hctx l (hkey q hq))
    have hfinal (k l : Nat) := finalComparison_eq hctx helement (hsum k l)
    show (ensure (ctx.isOnCurve q) _ >>= _) = (ensure (ctx.isOnCurve q) _ >>= _)
    simp only [hscalar, hfinal]

/-- **When the conversions are the standard's**: the scalar of a digest is the integer of its
    leftmost bits and every field element is reduced, exactly when the digest fits the order
    and the field is no larger than two orders and than the order's precision.  With base
    point and key in the field, the verifier is then the standard's. -/
theorem conversions_exact {curve : Curve} {ctx : CurveCtx} (hnew : CurveCtx.new curve = .ok ctx)
    (digest : Bytes) :
    ((ctx.digestToScalar digest = leftmostBits (Nat.size ctx.n) digest ∧
        ∀ x < ctx.p, ctx.bytesIntoN x = .ok (x % ctx.n)) ↔
      ctx.DigestFits digest ∧ ctx.p ≤ 2 * ctx.n ∧ ctx.p ≤ 2 ^ ctx.bitsN) ∧
    (ctx.DigestFits digest → ctx.p ≤ 2 * ctx.n → ctx.p ≤ 2 ^ ctx.bitsN →
      beValue curve.gx < ctx.p → ∀ pubkey signatureDer,
        (∀ q, parseAffine pubkey ctx.bitsP = .ok q → ctx.InField q) →
          verifyPrehashed curve pubkey signatureDer digest =
            verifyStandard curve pubkey signatureDer digest) := by
  obtain ⟨hctx, hg⟩ := new_eq_ok hnew
  constructor
  · rw [digestToScalar_leftmost hctx, ← elementsFit_iff hctx]
    simp only [bytesIntoN_eq_iff hctx]
  · intro hdigest hp hprecision hgx pubkey signatureDer hkey
    have helement := (elementsFit_iff hctx).mpr ⟨hp, hprecision⟩
    have hbase : ctx.InField ctx.g := by
      intro x y h
      obtain ⟨rfl, -⟩ := Prod.mk.inj (Option.some.inj (hg.symm.trans h))
      exact hgx
    exact verifyPrehashed_standard hnew hdigest helement hbase hkey signatureDer

/-- A curve of 521 bits: its order has more octets than any of the digests. -/
def secp521r1 : Curve where
  p := octets 66 (2 ^ 521 - 1)
  a := octets 66 (2 ^ 521 - 4)
  b := octets 66 0x51953EB9618E1C9A1F929A21A0B68540EEA2DA725B99B315F3B8B489918EF109E156193951EC7E937B1652C0BD3BB1BF073573DF883D2C34F1EF451FD46B503F00
  gx := octets 66 0xC6858E06B70404E9CD9E3ECB662395B4429C648139053FB521F828AF606B4D3DBAA14B5E77EFE75928FE1DC127A2FFA8DE3348B3C1856A429BF97E7E31C2E5BD66
  gy := octets 66 0x11839296A789A3BC0045C8A5FB42C7D1BD998F54449579B446817AFBD17273E662C97EE72995EF42640C550B9013FAD0761353C7086A272C24088BE94769FD16650
  n := octets 66 0x1FFFFFFFFFFFFFFFFFFFFFFFFFFFFFFFFFFFFFFFFFFFFFFFFFFFFFFFFFFFFFFFFFA51868783BF2F966B7FCC0148F709A5D03BB5C9B8899C47AEBB6FB71E91386409

/-- Its explicit parameters. -/
def secp521r1Parameters : Bytes :=
  [0x02, 0x01, 0x01, 0x30, 0x4D, 0x06, 0x07] ++ Oid.primeField ++ [0x02, 0x42] ++
    secp521r1.p ++ [0x30, 0x81, 0x88, 0x04, 0x42] ++ secp521r1.a ++ [0x04, 0x42] ++ secp521r1.b ++
    [0x04, 0x81, 0x85, 0x04] ++ secp521r1.gx ++ secp521r1.gy ++ [0x02, 0x42] ++ secp521r1.n

def secp521r1Ctx : CurveCtx where
  bitsP := 576
  bitsN := 576
  p := beValue secp521r1.p
  n := beValue secp521r1.n
  a := beValue secp521r1.a
  b := beValue secp521r1.b
  g := some (beValue secp521r1.gx, beValue secp521r1.gy)

/-- With a digest of 66 octets it has the standard's conversions. -/
theorem secp521r1_exact :
    secp521r1Ctx.digestToScalar (octets 66 0x80) =
        leftmostBits (Nat.size secp521r1Ctx.n) (octets 66 0x80) ∧
      ∀ x < secp521r1Ctx.p, secp521r1Ctx.bytesIntoN x = .ok (x % secp521r1Ctx.n) := by
  have hnew : CurveCtx.new secp521r1 = .ok secp521r1Ctx := by decide +kernel
  have hsize : Nat.size secp521r1Ctx.n ≤ 8 * (octets 66 0x80).length := by decide +kernel
  exact (conversions_exact hnew (octets 66 0x80)).1.mpr
    ⟨.inr (.inl hsize), by decide +kernel, by decide +kernel⟩

/-- A curve of 28 points over 23 elements, and a base point of order 7. -/
def order7 : Curve where
  p := [23]
  a := [1]
  b := [1]
  gx := [13]
  gy := [7]
  n := [7]

/-- Its explicit parameters. -/
def order7Parameters : Bytes :=
  [0x02, 0x01, 0x01, 0x30, 0x0C, 0x06, 0x07] ++ Oid.primeField ++ [0x02, 0x01, 23] ++
    [0x30, 0x06, 0x04, 0x01, 1, 0x04, 0x01, 1, 0x04, 0x03, 0x04, 13, 7, 0x02, 0x01, 7]

def order7Ctx : CurveCtx where
  bitsP := 64
  bitsN := 64
  p := 23
  n := 7
  a := 1
  b := 1
  g := some (13, 7)

/-- A digest of 64 octets is shifted although the order is longer, and an abscissa of two
    orders or more is not reduced: a good signature is refused. -/
theorem conversions_not_standard :
    (Curve.parseExplicit secp521r1Parameters = .ok secp521r1 ∧
      CurveCtx.new secp521r1 = .ok secp521r1Ctx ∧
      secp521r1Ctx.digestToScalar (octets 64 0x80) = 1 ∧
      leftmostBits (Nat.size secp521r1Ctx.n) (octets 64 0x80) = 0x80) ∧
    (Curve.parseExplicit order7Parameters = .ok order7 ∧
      CurveCtx.new order7 = .ok order7Ctx ∧
      order7Ctx.bytesIntoN 17 = .ok 10 ∧
      verifyPrehashed order7 [0x04, 5, 4] [0x30, 0x06, 0x02, 0x01, 3, 0x02, 0x01, 5]
        (0x40 :: octets 31 0) = .error .verifyFailed ∧
      verifyStandard order7 [0x04, 5, 4] [0x30, 0x06, 0x02, 0x01, 3, 0x02, 0x01, 5]
        (0x40 :: octets 31 0) = .ok ()) := by
  refine ⟨⟨?_, ?_, ?_, ?_⟩, ?_, ?_, ?_, ?_, ?_⟩ <;> decide +kernel

end CurveCtx

end RefineId
