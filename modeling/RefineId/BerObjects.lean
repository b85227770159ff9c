/-
  RefineId.BerObjects — objects as BER writes them.
  ════════════════════════════════════════════════════════════════════════════

  Identifiers of any number of octets and definite lengths in either form, as the encoding
  rules have them and whatever the readers of the crates make of them.  An object carries the
  proofs that its identifier and its length are well formed.
-/
import RefineId.Ber

namespace RefineId

open Ber

/-- Identifier octets: one, or a first with all five number bits set and more that end with the
    one whose high bit is clear. -/
def IsIdentifier (octets : Bytes) : Prop :=
  (∃ b : UInt8, octets = [b] ∧ b &&& 0x1F ≠ 0x1F) ∨
    ∃ (b last : UInt8) (more : Bytes), octets = b :: (more ++ [last]) ∧ b &&& 0x1F = 0x1F ∧
      (∀ c ∈ more, 0x80 ≤ c) ∧ last < 0x80

/-- Length octets of `n`: one octet below 128, or a count and that many octets. -/
def IsLength (octets : Bytes) (n : Nat) : Prop :=
  (∃ b : UInt8, octets = [b] ∧ b < 0x80 ∧ b.toNat = n) ∨
    ∃ (b : UInt8) (more : Bytes), octets = b :: more ∧ 0x80 < b ∧ b < 0xFF ∧
      more.length = b.toNat - 0x80 ∧ beValue more = n

/-- An object of BER with a definite length. -/
structure BerObject where
  identifier : Bytes
  lengthOctets : Bytes
  value : Bytes
  isIdentifier : IsIdentifier identifier
  isLength : IsLength lengthOctets value.length

def BerObject.encode (object : BerObject) : Bytes :=
  object.identifier ++ object.lengthOctets ++ object.value

def encodeAll (objects : List BerObject) : Bytes := objects.flatMap BerObject.encode

end RefineId
