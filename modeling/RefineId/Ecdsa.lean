/-
  RefineId.Ecdsa — ECDSA over prime fields.
  ════════════════════════════════════════════════════════════════════════════

  `crates/refineid-lib-core/src/crypto/ecdsa.rs` and the copy of it in
  `crates/refineid-doc-sign/src/ecdsa.rs`.  Curves, points and the verifier have the same
  text in both crates and are embedded once.  The two `extract_ec_pubkey` differ in how they
  read the key's BIT STRING: `raw_bytes` takes the octets, `as_bytes` refuses unused bits.

  A `BoxedMontyForm` is the residue it stands for.  `BoxedUint::resize` and
  `u32::next_multiple_of` end the process on values that do not fit; that is the error
  `panicked`, which the source's enumeration does not have.
-/
import Mathlib.Data.Int.GCD
import Mathlib.Data.Nat.Size
import RefineId.Rsa

namespace RefineId

open Ber Lib

/-! ## §1. Curves -/

/-- `Curve`: big-endian magnitudes. -/
structure Curve where
  p : Bytes
  a : Bytes
  b : Bytes
  gx : Bytes
  gy : Bytes
  n : Bytes
  deriving Repr, DecidableEq

/-- `EcdsaError`, and `panicked`. -/
inductive EcdsaError where
  | badModulus
  | badPublicKey
  | badSignature
  | sigOutOfRange
  | notInvertible
  | verifyFailed
  | panicked
  deriving Repr, DecidableEq

/-- `Display` of `EcdsaError`. -/
def EcdsaError.display : EcdsaError → String
  | .badModulus => "ECDSA: curve modulus malformed"
  | .badPublicKey => "ECDSA: public key off-curve or bad encoding"
  | .badSignature => "ECDSA: signature SEQUENCE malformed"
  | .sigOutOfRange => "ECDSA: r or s out of [1, n-1]"
  | .notInvertible => "ECDSA: s has no inverse mod n"
  | .verifyFailed => "ECDSA: verification rejected"
  | .panicked => ""

/-- `known::PRIME_FIELD`. -/
def Oid.primeField : Bytes := Oid.dotted [1, 2, 840, 10045, 1, 1]

/-- `named_curve_from_oid`. -/
def namedCurveFromOid (oid : Bytes) : Option Curve :=
  if oid = Oid.secp256r1 then some {
    p := octets 32 0xFFFFFFFF00000001000000000000000000000000FFFFFFFFFFFFFFFFFFFFFFFF
    a := octets 32 0xFFFFFFFF00000001000000000000000000000000FFFFFFFFFFFFFFFFFFFFFFFC
    b := octets 32 0x5AC635D8AA3A93E7B3EBBD55769886BC651D06B0CC53B0F63BCE3C3E27D2604B
    gx := octets 32 0x6B17D1F2E12C4247F8BCE6E563A440F277037D812DEB33A0F4A13945D898C296
    gy := octets 32 0x4FE342E2FE1A7F9B8EE7EB4A7C0F9E162BCE33576B315ECECBB6406837BF51F5
    n := octets 32 0xFFFFFFFF00000000FFFFFFFFFFFFFFFFBCE6FAADA7179E84F3B9CAC2FC632551 }
  else if oid = Oid.secp384r1 then some {
    p := octets 48 0xFFFFFFFFFFFFFFFFFFFFFFFFFFFFFFFFFFFFFFFFFFFFFFFFFFFFFFFFFFFFFFFEFFFFFFFF0000000000000000FFFFFFFF
    a := octets 48 0xFFFFFFFFFFFFFFFFFFFFFFFFFFFFFFFFFFFFFFFFFFFFFFFFFFFFFFFFFFFFFFFEFFFFFFFF0000000000000000FFFFFFFC
    b := octets 48 0xB3312FA7E23EE7E4988E056BE3F82D19181D9C6EFE8141120314088F5013875AC656398D8A2ED19D2A85C8EDD3EC2AEF
    gx := octets 48 0xAA87CA22BE8B05378EB1C71EF320AD746E1D3B628BA79B9859F741E082542A385502F25DBF55296C3A545E3872760AB7
    gy := octets 48 0x3617DE4A96262C6F5D9E98BF9292DC29F8F41DBD289A147CE9DA3113B5F0B8C00A60B1CE1D7E819D7A431D7C90EA0E5F
    n := octets 48 0xFFFFFFFFFFFFFFFFFFFFFFFFFFFFFFFFFFFFFFFFFFFFFFFFC7634D81F4372DDF581A0DB248B0A77AECEC196ACCC52973 }
  else none

/-- `next_child(&mut it)?.expect::<T>()`: the value of the next element, and what is left. -/
def expectChild (tag : Nat) : List (Except BerError BerTlvAny) →
    Except EcdsaError (Bytes × List (Except BerError BerTlvAny))
  | .ok t :: rest => if t.tag = tag then .ok (t.value, rest) else .error .badModulus
  | _ => .error .badModulus

/-- `strip_sign`: one leading zero octet. -/
def stripSign : Bytes → Bytes
  | 0x00 :: rest => rest
  | whole => whole

/-- The two halves of an uncompressed point's body. -/
def pointHalves (error : EcdsaError) : Bytes → Except EcdsaError (Bytes × Bytes)
  | 0x04 :: body =>
    if body.length % 2 = 0 ∧ body ≠ [] then
      .ok (body.take (body.length / 2), body.drop (body.length / 2))
    else .error error
  | _ => .error error

/-- `Curve::parse_explicit`. -/
def Curve.parseExplicit (seqValue : Bytes) : Except EcdsaError Curve := do
  let (_, it) ← expectChild 0x02 (children seqValue)
  let (fieldId, it) ← expectChild 0x30 it
  let (fieldType, fieldIter) ← expectChild 0x06 (children fieldId)
  ensure (fieldType = Oid.primeField) .badModulus
  let (prime, _) ← expectChild 0x02 fieldIter
  let (curveSeq, it) ← expectChild 0x30 it
  let (a, curveIt) ← expectChild 0x04 (children curveSeq)
  let (b, _) ← expectChild 0x04 curveIt
  let (base, it) ← expectChild 0x04 it
  let (gx, gy) ← pointHalves .badModulus base
  let (order, _) ← expectChild 0x02 it
  return { p := stripSign prime, a, b, gx, gy, n := stripSign order }

/-! ## §2. Arithmetic on a curve -/

/-- `bits_for_len`: the next multiple of 64 of a bit count held in 32 bits. -/
def bitsForLen (byteLen : Nat) : Except EcdsaError Nat :=
  let nominal := min (min byteLen (2 ^ 32 - 1) * 8) (2 ^ 32 - 1)
  if limbPrecision nominal < 2 ^ 32 then .ok (max (limbPrecision nominal) 64) else .error .panicked

/-- `boxed`. -/
def boxed (bytes : Bytes) (bits : Nat) : Except EcdsaError Nat :=
  okOr .badModulus (fromBeSlice bytes bits)

/-- `AffinePoint`: `none` is the point at infinity. -/
abbrev AffinePoint := Option (Nat × Nat)

/-- `CurveCtx`. -/
structure CurveCtx where
  bitsP : Nat
  bitsN : Nat
  p : Nat
  n : Nat
  a : Nat
  b : Nat
  g : AffinePoint
  deriving Repr, DecidableEq

/-- `CurveCtx::new`. -/
def CurveCtx.new (curve : Curve) : Except EcdsaError CurveCtx := do
  let bitsP ← bitsForLen curve.p.length
  let bitsN ← bitsForLen curve.n.length
  let p ← boxed curve.p bitsP
  let n ← boxed curve.n bitsN
  let a ← boxed curve.a bitsP
  let b ← boxed curve.b bitsP
  let gx ← boxed curve.gx bitsP
  let gy ← boxed curve.gy bitsP
  -- `Odd::new`
  ensure (p % 2 = 1) .badModulus
  ensure (n % 2 = 1) .badModulus
  return { bitsP, bitsN, p, n, a, b, g := some (gx, gy) }

/-- `BoxedMontyForm::invert`. -/
def invert (m x : Nat) : Option Nat :=
  if Nat.gcd x m = 1 then some ((Nat.gcdA x m) % m).toNat else none

/-- Subtraction of residues. -/
def subMod (m x y : Nat) : Nat := (x % m + (m - y % m)) % m

namespace CurveCtx

variable (ctx : CurveCtx)

/-- The third point of the chord or tangent with slope `lambda`, mirrored. -/
def slopePoint (lambda px py qx : Nat) : AffinePoint :=
  let rx := subMod ctx.p (subMod ctx.p (lambda * lambda) px) qx
  some (rx, subMod ctx.p (lambda * subMod ctx.p px rx) py)

/-- `CurveCtx::double`. -/
def double : AffinePoint → AffinePoint
  | none => none
  | some (px, py) =>
    if py % ctx.p = 0 then none
    else match invert ctx.p (2 * py % ctx.p) with
      | none => none
      | some denInv => ctx.slopePoint ((3 * (px * px) + ctx.a) * denInv % ctx.p) px py px

/-- `CurveCtx::add`. -/
def add : AffinePoint → AffinePoint → AffinePoint
  | none, q => q
  | some p, none => some p
  | some (px, py), some (qx, qy) =>
    if px = qx then
      if py = qy then ctx.double (some (px, py)) else none
    else match invert ctx.p (subMod ctx.p qx px) with
      | none => none
      | some denInv => ctx.slopePoint (subMod ctx.p qy py * denInv % ctx.p) px py qx

/-- `CurveCtx::scalar_mul`: double and add from the lowest bit. -/
def scalarMul (k : Nat) : AffinePoint → AffinePoint
  | none => none
  | some point =>
    ((List.range (Nat.size k)).foldl
      (fun (acc, addend) i => (if k.testBit i then ctx.add acc addend else acc, ctx.double addend))
      ((none : AffinePoint), some point)).1

/-- `CurveCtx::is_on_curve`. -/
def isOnCurve : AffinePoint → Bool
  | none => false
  | some (qx, qy) => qy * qy % ctx.p = (qx * qx * qx + ctx.a * qx + ctx.b) % ctx.p

/-- The shift of `digest_to_scalar` over the whole buffer. -/
def shiftBuffer (extraBits : Nat) : UInt8 → Bytes → Bytes
  | _, [] => []
  | carry, b :: bs =>
    UInt8.ofNat (b.toNat >>> extraBits ||| (carry.toNat <<< (8 - extraBits)) % 256) ::
      shiftBuffer extraBits (UInt8.ofNat (b.toNat &&& (2 ^ extraBits - 1))) bs

/-- `digest_to_scalar`. -/
def digestToScalar (digest : Bytes) : Nat :=
  let nBits := Nat.size ctx.n
  let buf := digest.take (min digest.length ((nBits + 7) / 8))
  let extraBits := (8 - nBits % 8) % 8
  let buf := if extraBits ≠ 0 then shiftBuffer extraBits 0 buf else buf
  (fromBeSlice buf ctx.bitsN).getD 0

/-- `bytes_into_n`. -/
def bytesIntoN (sx : Nat) : Except EcdsaError Nat :=
  if Nat.size sx ≤ ctx.bitsN then .ok (if ctx.n ≤ sx then sx - ctx.n else sx)
  else .error .panicked

end CurveCtx

/-! ## §3. Points, signatures and the verifier -/

/-- `Sec1UncompressedPoint::from_bytes`. -/
def Sec1UncompressedPoint.fromBytes (bytes : Bytes) : Option Bytes :=
  match bytes with
  | 0x04 :: body => if body.length = 0 ∨ body.length % 2 ≠ 0 then none else some bytes
  | _ => none

/-- `parse_affine`. -/
def parseAffine (point : Bytes) (bitsP : Nat) : Except EcdsaError AffinePoint := do
  let (x, y) ← pointHalves .badPublicKey point
  return some (← boxed x bitsP, ← boxed y bitsP)

/-- `parse_ecdsa_signature`: what follows the second INTEGER is not looked at. -/
def parseEcdsaSignature (der : Bytes) : Except EcdsaError (Bytes × Bytes) := do
  let outer ← (parseExpect 0x30 der).mapError fun _ => .badSignature
  let r ← (parseExpect 0x02 outer.value).mapError fun _ => .badSignature
  let s ← (parseExpect 0x02 (outer.value.drop r.size)).mapError fun _ => .badSignature
  return (stripSign r.value, stripSign s.value)

/-- `verify_prehashed`. -/
def verifyPrehashed (curve : Curve) (pubkey signatureDer messageDigest : Bytes) :
    Except EcdsaError Unit := do
  let ctx ← CurveCtx.new curve
  let q ← parseAffine pubkey ctx.bitsP
  ensure (ctx.isOnCurve q) .badPublicKey
  let (rBytes, sBytes) ← parseEcdsaSignature signatureDer
  let r ← boxed rBytes ctx.bitsN
  let s ← boxed sBytes ctx.bitsN
  ensure (1 ≤ r && r < ctx.n && 1 ≤ s && s < ctx.n) .sigOutOfRange
  let e := ctx.digestToScalar messageDigest
  let w ← okOr .notInvertible (invert ctx.n s)
  let pointA := ctx.scalarMul (e * w % ctx.n) ctx.g
  let pointB := ctx.scalarMul (r * w % ctx.n) q
  let (sx, _) ← okOr .verifyFailed (ctx.add pointA pointB)
  let sxN ← ctx.bytesIntoN sx
  ensure (sxN = r) .verifyFailed

/-! ## §4. The keys of the two crates -/

section
variable (E : Externals)

/-- The curve and the key octets `raw_bytes` of an EC SubjectPublicKeyInfo. -/
def ecKeyParts (info : SpkiInfo) : Option (Curve × Bytes) := do
  guard (info.algorithmOid = Oid.ecPublicKey)
  let params ← info.parameters
  let curve ← match E.decodeOid params with
    | some curveOid => do
      guard (Oid.wellFormed curveOid)
      namedCurveFromOid curveOid
    | none => (Curve.parseExplicit params.2).toOption
  return (curve, info.subjectPublicKey)

/-- `extract_ec_pubkey` of lib-core. -/
def extractEcPubkey (spkiDer : Bytes) : Option (Curve × Bytes) := do
  let info ← E.spkiInfo spkiDer
  let (curve, rawBytes) ← ecKeyParts E info
  let pubkey ← Sec1UncompressedPoint.fromBytes rawBytes
  return (curve, pubkey)

/-- `extract_ec_pubkey` of doc-sign; `unusedBits` is the count the decoded BIT STRING
    declares. -/
def DocSign.extractEcPubkey (unusedBits : Bytes → Nat) (spkiDer : Bytes) :
    Option (Curve × Bytes) := do
  let info ← E.spkiInfo spkiDer
  let (curve, rawBytes) ← ecKeyParts E info
  -- `as_bytes()?`
  guard (unusedBits spkiDer = 0)
  let pubkey ← Sec1UncompressedPoint.fromBytes rawBytes
  return (curve, pubkey)

end

end RefineId
