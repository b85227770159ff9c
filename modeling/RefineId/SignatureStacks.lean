/-
  RefineId.SignatureStacks — the two signature verification stacks.
  ════════════════════════════════════════════════════════════════════════════

  lib-core checks the signatures over certificates, `verify_tbs_signature`; doc-sign checks
  those over documents, `verify_dispatch`.  Each crate carries its own RSA and ECDSA
  modules.  Here both dispatchers run over the modules they have in the source, and their
  verdicts on the same key, payload and signature are compared.

  The copies differ in which keys they admit: doc-sign wants an RSA exponent from 3 up to
  256 bits and an EC key without unused bits, lib-core asks for neither.

  Main results:
    • `libCore_rsa_iff`, `docSign_rsa_iff`, `libCore_ecdsa_iff`, `docSign_ecdsa_iff` : what
                        each stack accepts.
    • `agree_iff`     : the verdicts agree exactly if no signature verifies under a key that
                        only lib-core admits.
-/
import RefineId.Cms
import RefineId.Ecdsa

namespace RefineId

namespace SignatureStacks

open Ber Lib Cms

section
variable (E : Externals) (unusedBits : Bytes → Nat)

/-! ## §1. The stacks -/

/-- The crates of `E` with lib-core's RSA and ECDSA modules over them.  The curve of an EC
    key is named by the SubjectPublicKeyInfo it was read from. -/
def libCore : Externals :=
  { E with
    extractRsaPublicKey := RefineId.extractRsaPublicKey E
    verifyPkcs1v15 := fun hash key message signature =>
      (RefineId.verifyPkcs1v15 key (digestInfo hash) (E.sha2 hash message) signature).mapError
        RsaVerifyError.display
    extractEcPubkey := fun der => (RefineId.extractEcPubkey E der).map fun key => ⟨der, key.2⟩
    verifyPrehashed := fun key signature digest =>
      match RefineId.extractEcPubkey E key.curve with
      | some (curve, _) =>
        (RefineId.verifyPrehashed curve key.point signature digest).mapError EcdsaError.display
      | none => .error EcdsaError.badModulus.display }

/-- doc-sign's modules: the RSA key is lib-core's, checked again. -/
def docSign : SignatureChecks where
  rsaKey der := do
    let libKey ← RefineId.extractRsaPublicKey E der
    let modulus ← (RsaModulus.tryFromPkcs1 libKey.modulus).toOption
    let exponent ← (DocSign.RsaPublicExponent.tryFromPkcs1 libKey.exponent).toOption
    return ⟨modulus, exponent⟩
  rsaVerify hash key payload signature :=
    (RefineId.verifyPkcs1v15 key (digestInfo hash) (E.sha2 hash payload) signature).mapError
      RsaVerifyError.display
  ecKey der := (DocSign.extractEcPubkey E unusedBits der).map fun key => ⟨der, key.2⟩
  ecVerify key signature digest :=
    match DocSign.extractEcPubkey E unusedBits key.curve with
    | some (curve, _) =>
      (RefineId.verifyPrehashed curve key.point signature digest).mapError EcdsaError.display
    | none => .error EcdsaError.badModulus.display

/-- The algorithms both dispatchers have an arm for. -/
def signatureOids : List Bytes :=
  [Oid.sha256WithRsa, Oid.sha384WithRsa, Oid.sha512WithRsa,
   Oid.ecdsaWithSha256, Oid.ecdsaWithSha384, Oid.ecdsaWithSha512]

/-- **The stacks agree** on a key, a payload and a signature. -/
def Agree (oid : Bytes) (fallback : HashAlg) (spki payload signature : Bytes) : Prop :=
  oid ∈ signatureOids →
    (verifyTbsSignature (libCore E) payload oid signature spki = .ok () ↔
      verifyDispatch (libCore E) (docSign E unusedBits) oid fallback spki payload signature = .ok ())

/-- An exponent doc-sign takes as well. -/
def inProfile (exponent : Bytes) : Prop := 3 ≤ beValue exponent ∧ beValue exponent < 2 ^ 256

/-- The signature verifies under a key that only lib-core admits: an RSA key whose exponent
    is below three or above 256 bits, or an EC key whose BIT STRING has unused bits. -/
def OnlyLibCore (oid spki payload signature : Bytes) : Prop :=
  (∃ hash key, SignatureAlgorithm.fromOid oid = .rsa hash ∧
    RefineId.extractRsaPublicKey E spki = some key ∧ ¬inProfile key.exponent ∧
    IsPkcs1Signature key (digestInfo hash) (E.sha2 hash payload) signature) ∨
  (∃ hash curve point, SignatureAlgorithm.fromOid oid = .ecdsa hash ∧
    RefineId.extractEcPubkey E spki = some (curve, point) ∧ unusedBits spki ≠ 0 ∧
    RefineId.verifyPrehashed curve point signature (E.sha2 hash payload) = .ok ())

/-! ## §2. The dispatchers -/

theorem mem_signatureOids_iff (oid : Bytes) :
    oid ∈ signatureOids ↔ SignatureAlgorithm.fromOid oid ≠ .other := by
  unfold SignatureAlgorithm.fromOid
  simp only [signatureOids, List.mem_cons, List.not_mem_nil, or_false]
  split_ifs <;> simp_all

theorem verifyDispatch_rsa (S : SignatureChecks) {oid : Bytes} {hash : HashAlg}
    (h : SignatureAlgorithm.fromOid oid = .rsa hash) (fallback : HashAlg)
    (spki payload signature : Bytes) :
    verifyDispatch E S oid fallback spki payload signature = (do
      let key ← okOr .badSignerKey (S.rsaKey spki)
      (S.rsaVerify hash key payload signature).mapError .rsa) := by
  unfold SignatureAlgorithm.fromOid at h
  unfold verifyDispatch
  split_ifs at h <;> simp_all

theorem verifyDispatch_ecdsa (S : SignatureChecks) {oid : Bytes} {hash : HashAlg}
    (h : SignatureAlgorithm.fromOid oid = .ecdsa hash) (fallback : HashAlg)
    (spki payload signature : Bytes) :
    verifyDispatch E S oid fallback spki payload signature = (do
      let key ← okOr .badSignerKey (S.ecKey spki)
      (S.ecVerify key signature (E.sha2 hash payload)).mapError .ecdsa) := by
  have hkey : oid ≠ Oid.rsaEncryption := by
    intro heq
    have hother : SignatureAlgorithm.fromOid Oid.rsaEncryption = .other := by decide
    rw [heq, hother] at h
    exact absurd h (by simp)
  unfold SignatureAlgorithm.fromOid at h
  unfold verifyDispatch
  split_ifs at h <;> simp_all

/-! ## §3. What each stack accepts -/

/-- A key lib-core has read: its modulus passes again, and is of the size it had. -/
theorem extractRsaPublicKey_some {spki : Bytes} {key : RsaPublicKey}
    (h : RefineId.extractRsaPublicKey E spki = some key) :
    RsaModulus.tryFromPkcs1 key.modulus = .ok key.modulus ∧
      RsaPublicExponent.tryFromPkcs1 key.exponent = .ok key.exponent := by
  simp only [RefineId.extractRsaPublicKey, Option.bind_eq_bind, Option.bind_eq_some_iff,
    toOption_eq_some, Option.pure_def, Option.some.injEq] at h
  obtain ⟨info, -, -, -, ⟨modulusBytes, exponentBytes⟩, -, modulus, hmod, exponent, hexp, rfl⟩ := h
  have hm := (modulus_tryFromPkcs1 hmod).1
  have he := exponent_tryFromPkcs1 hexp
  exact ⟨hm ▸ hmod, he ▸ hexp⟩

variable {oid : Bytes} {hash : HashAlg} {fallback : HashAlg} {spki payload signature : Bytes}

/-- **lib-core on RSA.** -/
theorem libCore_rsa_iff (h : SignatureAlgorithm.fromOid oid = .rsa hash) :
    verifyTbsSignature (libCore E) payload oid signature spki = .ok () ↔
      ∃ key, RefineId.extractRsaPublicKey E spki = some key ∧
        IsPkcs1Signature key (digestInfo hash) (E.sha2 hash payload) signature := by
  have hkey : (libCore E).extractRsaPublicKey spki = RefineId.extractRsaPublicKey E spki := rfl
  simp only [verifyTbsSignature, h, hkey]
  cases hx : RefineId.extractRsaPublicKey E spki with
  | none => simp
  | some key =>
    simp only [libCore, mapError_eq_ok_iff, Option.some.injEq, exists_eq_left']
    exact verifyPkcs1v15_iff (extractRsaPublicKey_some E hx).1

/-- **doc-sign on RSA**: lib-core's key, with an exponent in the profile. -/
theorem docSign_rsa_iff (h : SignatureAlgorithm.fromOid oid = .rsa hash) :
    verifyDispatch (libCore E) (docSign E unusedBits) oid fallback spki payload signature = .ok () ↔
      ∃ key, RefineId.extractRsaPublicKey E spki = some key ∧ inProfile key.exponent ∧
        IsPkcs1Signature key (digestInfo hash) (E.sha2 hash payload) signature := by
  rw [verifyDispatch_rsa (libCore E) _ h]
  simp only [bind_eq_ok, okOr_eq_ok, docSign, Option.bind_eq_bind, Option.bind_eq_some_iff,
    toOption_eq_some, Option.pure_def, Option.some.injEq, mapError_eq_ok_iff]
  constructor
  · intro hx
    obtain ⟨key, ⟨libKey, hlib, modulus, hmod, exponent, hexp, rfl⟩, hverify⟩ := hx
    obtain ⟨hmod', -⟩ := extractRsaPublicKey_some E hlib
    obtain ⟨hexp', hprofile⟩ := docSign_tryFromPkcs1_iff.mp hexp
    obtain rfl := (modulus_tryFromPkcs1 hmod).1
    obtain rfl := exponent_tryFromPkcs1 hexp'
    exact ⟨libKey, hlib, hprofile, (verifyPkcs1v15_iff hmod).mp hverify⟩
  · intro hx
    obtain ⟨key, hlib, hprofile, hsigned⟩ := hx
    obtain ⟨hmod, hexp⟩ := extractRsaPublicKey_some E hlib
    exact ⟨key, ⟨key, hlib, key.modulus, hmod, key.exponent,
      docSign_tryFromPkcs1_iff.mpr ⟨hexp, hprofile⟩, rfl⟩, (verifyPkcs1v15_iff hmod).mpr hsigned⟩

/-- **lib-core on ECDSA.** -/
theorem libCore_ecdsa_iff (h : SignatureAlgorithm.fromOid oid = .ecdsa hash) :
    verifyTbsSignature (libCore E) payload oid signature spki = .ok () ↔
      ∃ curve point, RefineId.extractEcPubkey E spki = some (curve, point) ∧
        RefineId.verifyPrehashed curve point signature (E.sha2 hash payload) = .ok () := by
  simp only [verifyTbsSignature, h, libCore]
  cases hx : RefineId.extractEcPubkey E spki with
  | none => simp
  | some key => simp [hx, mapError_eq_ok_iff, Prod.ext_iff]

/-- The two key readers differ in the unused bits alone. -/
theorem docSign_extractEcPubkey_iff {key : Curve × Bytes} :
    DocSign.extractEcPubkey E unusedBits spki = some key ↔
      RefineId.extractEcPubkey E spki = some key ∧ unusedBits spki = 0 := by
  simp only [DocSign.extractEcPubkey, RefineId.extractEcPubkey, Option.bind_eq_bind,
    Option.bind_eq_some_iff, Option.guard_eq_some', Option.pure_def, Option.some.injEq]
  constructor
  · intro hx
    obtain ⟨info, hinfo, parts, hparts, -, hbits, point, hpoint, rfl⟩ := hx
    exact ⟨⟨info, hinfo, parts, hparts, point, hpoint, rfl⟩, hbits⟩
  · intro hx
    obtain ⟨⟨info, hinfo, parts, hparts, point, hpoint, rfl⟩, hbits⟩ := hx
    exact ⟨info, hinfo, parts, hparts, (), hbits, point, hpoint, rfl⟩

/-- **doc-sign on ECDSA**: lib-core's key, without unused bits. -/
theorem docSign_ecdsa_iff (h : SignatureAlgorithm.fromOid oid = .ecdsa hash) :
    verifyDispatch (libCore E) (docSign E unusedBits) oid fallback spki payload signature = .ok () ↔
      ∃ curve point, RefineId.extractEcPubkey E spki = some (curve, point) ∧
        unusedBits spki = 0 ∧
        RefineId.verifyPrehashed curve point signature (E.sha2 hash payload) = .ok () := by
  rw [verifyDispatch_ecdsa (libCore E) _ h]
  simp only [bind_eq_ok, okOr_eq_ok, mapError_eq_ok_iff, docSign, Option.map_eq_some_iff]
  constructor
  · intro hx
    obtain ⟨_, ⟨⟨curve, point⟩, hkey, rfl⟩, hverify⟩ := hx
    simp only [hkey, mapError_eq_ok_iff] at hverify
    obtain ⟨hlib, hbits⟩ := (docSign_extractEcPubkey_iff E unusedBits).mp hkey
    exact ⟨curve, point, hlib, hbits, hverify⟩
  · intro hx
    obtain ⟨curve, point, hlib, hbits, hverify⟩ := hx
    have hkey := (docSign_extractEcPubkey_iff E unusedBits).mpr ⟨hlib, hbits⟩
    refine ⟨_, ⟨(curve, point), hkey, rfl⟩, ?_⟩
    simp only [hkey, mapError_eq_ok_iff]
    exact hverify

/-! ## §4. The verdicts compared -/

/-- **The stacks agree** exactly if the signature does not verify under a key that only
    lib-core admits. -/
theorem agree_iff (oid : Bytes) (fallback : HashAlg) (spki payload signature : Bytes) :
    Agree E unusedBits oid fallback spki payload signature ↔
      ¬OnlyLibCore E unusedBits oid spki payload signature := by
  rw [Agree, mem_signatureOids_iff]
  cases halg : SignatureAlgorithm.fromOid oid with
  | other => simp [OnlyLibCore, halg]
  | rsa hash =>
    rw [libCore_rsa_iff E halg, docSign_rsa_iff E unusedBits halg]
    simp only [OnlyLibCore, halg, SignatureAlgorithm.rsa.injEq, reduceCtorEq, false_and,
      exists_false, or_false, ne_eq, not_false_eq_true, true_imp_iff]
    constructor
    · intro hagree hx
      obtain ⟨_, key, rfl, hkey, hout, hsigned⟩ := hx
      obtain ⟨key', hkey', hin, -⟩ := hagree.mp ⟨key, hkey, hsigned⟩
      obtain rfl : key = key' := Option.some.inj (hkey.symm.trans hkey')
      exact hout hin
    · intro hnone
      constructor
      · intro hx
        obtain ⟨key, hkey, hsigned⟩ := hx
        refine ⟨key, hkey, ?_, hsigned⟩
        by_contra hout
        exact hnone ⟨hash, key, rfl, hkey, hout, hsigned⟩
      · intro hx
        obtain ⟨key, hkey, -, hsigned⟩ := hx
        exact ⟨key, hkey, hsigned⟩
  | ecdsa hash =>
    rw [libCore_ecdsa_iff E halg, docSign_ecdsa_iff E unusedBits halg]
    simp only [OnlyLibCore, halg, SignatureAlgorithm.ecdsa.injEq, reduceCtorEq, false_and,
      exists_false, false_or, ne_eq, not_false_eq_true, true_imp_iff]
    constructor
    · intro hagree hx
      obtain ⟨_, curve, point, rfl, hkey, hbits, hverify⟩ := hx
      obtain ⟨_, _, -, hzero, -⟩ := hagree.mp ⟨curve, point, hkey, hverify⟩
      exact hbits hzero
    · intro hnone
      constructor
      · intro hx
        obtain ⟨curve, point, hkey, hverify⟩ := hx
        refine ⟨curve, point, hkey, ?_, hverify⟩
        by_contra hbits
        exact hnone ⟨hash, curve, point, rfl, hkey, hbits, hverify⟩
      · intro hx
        obtain ⟨curve, point, hkey, -, hverify⟩ := hx
        exact ⟨curve, point, hkey, hverify⟩

end

/-- An RSA key with exponent one, under which a padded digest signs itself. -/
def exponentOneSpki : Bytes := octets 92
  0x305a300d06092a864886f70d01010105000349003046024100e28d307b9d0e9378f445d8d245cb795141271506ab9c68d7d8e9b49683515709c99d729d73426053e35e4935d1c22f0b4eb2cc887f809cb9576ad9e312c695f3020101

/-- The padded SHA-256 digest of `abc`. -/
def selfSignature : Bytes := octets 64
  0x0001ffffffffffffffffffff003031300d060960864801650304020105000420ba7816bf8f01cfea414140de5dae2223b00361a396177a9cb410ff61f20015ad

def abc : Bytes := [0x61, 0x62, 0x63]

def abcCrates : Externals := Externals.sample []
  [(abc, octets 32 0xba7816bf8f01cfea414140de5dae2223b00361a396177a9cb410ff61f20015ad)] []

/-- **A forged signature** that lib-core accepts and doc-sign refuses. -/
theorem exponent_one_accepted :
    ¬Agree abcCrates (fun _ => 0) Oid.sha256WithRsa .sha256 exponentOneSpki abc selfSignature := by
  intro h
  have haccepted : verifyTbsSignature (libCore abcCrates) abc Oid.sha256WithRsa selfSignature
      exponentOneSpki = .ok () := by decide +kernel
  have hrefused : verifyDispatch (libCore abcCrates) (docSign abcCrates fun _ => 0)
      Oid.sha256WithRsa .sha256 exponentOneSpki abc selfSignature = .error .badSignerKey := by
    decide
  rw [(h (by decide)).mp haccepted] at hrefused
  exact absurd hrefused (by simp)

end SignatureStacks

end RefineId
