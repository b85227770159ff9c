/-
  RefineId.Oid — object identifiers.
  ════════════════════════════════════════════════════════════════════════════

  `crates/refineid-lib-core/src/oid.rs` and `crates/refineid-doc-sign/src/oids.rs`:
  the identifiers the parsers compare with, written in the source as dotted
  strings and held as the content octets of the DER encoding.
-/
import RefineId.Ber

namespace RefineId

namespace Oid

/-- Base-128 octets of one arc; the arcs of the known identifiers are below 2^21. -/
def arcOctets (n : Nat) : Bytes :=
  if n < 128 then [UInt8.ofNat n]
  else if n < 16384 then [UInt8.ofNat (128 + n / 128), UInt8.ofNat (n % 128)]
  else [UInt8.ofNat (128 + n / 16384), UInt8.ofNat (128 + n / 128 % 128), UInt8.ofNat (n % 128)]

/-- `oid_dotted!`: the first two arcs share one octet. -/
def dotted : List Nat → Bytes
  | a :: b :: arcs => arcOctets (40 * a + b) ++ arcs.flatMap arcOctets
  | _ => []

/-- `Oid::new` accepts nonempty content whose last octet ends an arc. -/
def wellFormed (content : Bytes) : Bool :=
  match content.getLast? with
  | none => false
  | some last => last < 0x80

/-! ## §1. Algorithms and curves -/

def rsaEncryption : Bytes := dotted [1, 2, 840, 113549, 1, 1, 1]
def sha256WithRsa : Bytes := dotted [1, 2, 840, 113549, 1, 1, 11]
def sha384WithRsa : Bytes := dotted [1, 2, 840, 113549, 1, 1, 12]
def sha512WithRsa : Bytes := dotted [1, 2, 840, 113549, 1, 1, 13]
def ecdsaWithSha256 : Bytes := dotted [1, 2, 840, 10045, 4, 3, 2]
def ecdsaWithSha384 : Bytes := dotted [1, 2, 840, 10045, 4, 3, 3]
def ecdsaWithSha512 : Bytes := dotted [1, 2, 840, 10045, 4, 3, 4]
def ecPublicKey : Bytes := dotted [1, 2, 840, 10045, 2, 1]
def secp256r1 : Bytes := dotted [1, 2, 840, 10045, 3, 1, 7]
def secp384r1 : Bytes := dotted [1, 3, 132, 0, 34]
def brainpoolP256r1 : Bytes := dotted [1, 3, 36, 3, 3, 2, 8, 1, 1, 7]
def brainpoolP384r1 : Bytes := dotted [1, 3, 36, 3, 3, 2, 8, 1, 1, 11]
def sha1 : Bytes := dotted [1, 3, 14, 3, 2, 26]
def sha256 : Bytes := dotted [2, 16, 840, 1, 101, 3, 4, 2, 1]
def sha384 : Bytes := dotted [2, 16, 840, 1, 101, 3, 4, 2, 2]
def sha512 : Bytes := dotted [2, 16, 840, 1, 101, 3, 4, 2, 3]

/-! ## §2. Certificate extensions and purposes -/

def subjectKeyIdentifier : Bytes := dotted [2, 5, 29, 14]
def keyUsage : Bytes := dotted [2, 5, 29, 15]
def subjectAltName : Bytes := dotted [2, 5, 29, 17]
def basicConstraints : Bytes := dotted [2, 5, 29, 19]
def nameConstraints : Bytes := dotted [2, 5, 29, 30]
def extKeyUsage : Bytes := dotted [2, 5, 29, 37]
def authorityInfoAccess : Bytes := dotted [1, 3, 6, 1, 5, 5, 7, 1, 1]
def adCaIssuers : Bytes := dotted [1, 3, 6, 1, 5, 5, 7, 48, 2]
def kpTimeStamping : Bytes := dotted [1, 3, 6, 1, 5, 5, 7, 3, 8]
def kpOcspSigning : Bytes := dotted [1, 3, 6, 1, 5, 5, 7, 3, 9]

/-! ## §3. OCSP and CMS -/

def basicOcspResponse : Bytes := dotted [1, 3, 6, 1, 5, 5, 7, 48, 1, 1]
def ocspNonce : Bytes := dotted [1, 3, 6, 1, 5, 5, 7, 48, 1, 2]
def ocspNoCheck : Bytes := dotted [1, 3, 6, 1, 5, 5, 7, 48, 1, 5]

def data : Bytes := dotted [1, 2, 840, 113549, 1, 7, 1]
def signedData : Bytes := dotted [1, 2, 840, 113549, 1, 7, 2]
def contentType : Bytes := dotted [1, 2, 840, 113549, 1, 9, 3]
def messageDigest : Bytes := dotted [1, 2, 840, 113549, 1, 9, 4]
def tstInfo : Bytes := dotted [1, 2, 840, 113549, 1, 9, 16, 1, 4]
def signingCertificate : Bytes := dotted [1, 2, 840, 113549, 1, 9, 16, 2, 12]
def signingCertificateV2 : Bytes := dotted [1, 2, 840, 113549, 1, 9, 16, 2, 47]
def signingTime : Bytes := dotted [1, 2, 840, 113549, 1, 9, 5]
def signatureTimeStampToken : Bytes := dotted [1, 2, 840, 113549, 1, 9, 16, 2, 14]
def ocspResponseRevocationInfo : Bytes := dotted [1, 3, 6, 1, 5, 5, 7, 16, 2]

example : kpOcspSigning = [0x2B, 0x06, 0x01, 0x05, 0x05, 0x07, 0x03, 0x09] := by decide
example : rsaEncryption = [0x2A, 0x86, 0x48, 0x86, 0xF7, 0x0D, 0x01, 0x01, 0x01] := by decide

end Oid

end RefineId
