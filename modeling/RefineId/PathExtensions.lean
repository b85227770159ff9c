/-
  RefineId.PathExtensions — the strict reading of certificate extensions.
  ════════════════════════════════════════════════════════════════════════════

  `crates/refineid-doc-sign/src/material.rs`, `path_extension_profile` and what it
  calls.  Every certificate of a path below the anchor passes through this parser;
  unlike the lenient lookups of the core crate it refuses duplicates, trailing
  bytes and critical extensions it does not know.

  Main results:
    • `profileLoop_cons`              : one turn of the loop, read backwards.
    • `pathExtensionProfile_accepted` : an accepted extension field has well-formed,
                                        pairwise different entries, and every critical
                                        one is of a kind the path builder acts on.
-/
import RefineId.X509

namespace RefineId

open Ber

namespace PathExtensions

/-! ## §1. The profile -/

/-- `BasicConstraints`. -/
structure BasicConstraints where
  ca : Bool
  pathLen : Option Nat
  critical : Bool
  present : Bool
  deriving Repr, DecidableEq

/-- `KeyUsage`. -/
structure KeyUsage where
  digitalSignature : Bool
  nonRepudiation : Bool
  keyEncipherment : Bool
  dataEncipherment : Bool
  keyAgreement : Bool
  keyCertSign : Bool
  crlSign : Bool
  encipherOnly : Bool
  decipherOnly : Bool
  deriving Repr, DecidableEq

/-- `KeyUsageMeta`. -/
structure KeyUsageMeta where
  keyUsage : KeyUsage
  critical : Bool
  deriving Repr, DecidableEq

/-- `PathExtensionProfile`. -/
structure PathExtensionProfile where
  basicConstraints : BasicConstraints := ⟨false, none, false, false⟩
  keyUsage : Option KeyUsageMeta := none
  extendedKeyUsagePresent : Bool := false
  ocspSigningExtendedKeyUsage : Bool := false
  timeStampingExtendedKeyUsage : Bool := false
  otherExtendedKeyUsagePresent : Bool := false
  ocspNoCheckPresent : Bool := false
  nameConstraintsPresent : Bool := false
  deriving Repr, DecidableEq

/-- `PathExtensionError`. -/
inductive PathExtensionError where
  | malformed (detail : String)
  | duplicate
  | unsupportedCritical
  | invalidOcspNoCheck
  deriving Repr, DecidableEq

/-- `Display` of `PathExtensionError`. -/
def PathExtensionError.display : PathExtensionError → String
  | .malformed detail => "malformed certificate extension: " ++ detail
  | .duplicate => "duplicate certificate extension"
  | .unsupportedCritical => "unsupported critical certificate extension"
  | .invalidOcspNoCheck => "malformed id-pkix-ocsp-nocheck extension"

/-! ## §2. Reading one value -/

/-- `exact_path_extension_tlv::<T>`. -/
def exactPathExtensionTlv (tag : Nat) (value : Bytes) (label : String) :
    Except PathExtensionError BerTlvAny :=
  match parseExpect tag value with
  | .error _ => .error (.malformed label)
  | .ok parsed =>
    if parsed.size ≠ value.length then .error (.malformed "extension value has trailing bytes")
    else .ok parsed

/-- `parse_path_length`: a non-negative DER-minimal INTEGER of at most 32 bits. -/
def parsePathLength : Bytes → Except PathExtensionError Nat
  | [] => .error (.malformed "Basic Constraints pathLen is empty")
  | first :: rest =>
    if 0x80 ≤ first then .error (.malformed "Basic Constraints pathLen is negative")
    else if first = 0 then
      match rest with
      | [] => .ok 0
      | second :: _ =>
        if second < 0x80 then .error (.malformed "Basic Constraints pathLen is not DER-minimal")
        else octets rest
    else octets (first :: rest)
where
  octets (magnitude : Bytes) : Except PathExtensionError Nat :=
    if 4 < magnitude.length then .error (.malformed "Basic Constraints pathLen is too large")
    else .ok (beValue magnitude)

/-- `fields.next().transpose()` with the error mapped to `detail`. -/
def nextField (detail : String) :
    List (Except BerError BerTlvAny) → Except PathExtensionError
      (Option BerTlvAny × List (Except BerError BerTlvAny))
  | [] => .ok (none, [])
  | .ok t :: rest => .ok (some t, rest)
  | .error _ :: _ => .error (.malformed detail)

/-- `parse_path_basic_constraints`. -/
def parsePathBasicConstraints (value : Bytes) (critical : Bool) :
    Except PathExtensionError BasicConstraints := do
  let outer ← exactPathExtensionTlv 0x30 value "Basic Constraints"
  let (next, fields) ← nextField "Basic Constraints child encoding" (children outer.value)
  -- DVV cardholder certificates encode the DEFAULT FALSE; it grants nothing
  let (ca, next, fields) ← match next with
    | none => pure (false, none, fields)
    | some flag =>
      if flag.tag = 0x01 then do
        let ca ← if flag.value = [0] then pure false
          else if flag.value = [0xFF] then pure true
          else .error (.malformed "Basic Constraints cA is not a canonical DER BOOLEAN")
        let (next, fields) ← nextField "Basic Constraints pathLen encoding" fields
        pure (ca, next, fields)
      else pure (false, some flag, fields)
  let pathLen ← match next with
    | none => pure none
    | some len =>
      if len.tag ≠ 0x02 then .error (.malformed "Basic Constraints pathLen tag")
      else if !ca then .error (.malformed "Basic Constraints pathLen without cA")
      else (parsePathLength len.value).map some
  if !fields.isEmpty then .error (.malformed "Basic Constraints has trailing fields")
  else .ok { ca, pathLen, critical, present := true }

/-- `u8::trailing_zeros`. -/
def trailingZeros (b : UInt8) : Nat :=
  if b.toNat % 2 = 1 then 0
  else if b.toNat % 4 = 2 then 1
  else if b.toNat % 8 = 4 then 2
  else if b.toNat % 16 = 8 then 3
  else if b.toNat % 32 = 16 then 4
  else if b.toNat % 64 = 32 then 5
  else if b.toNat % 128 = 64 then 6
  else if b.toNat % 256 = 128 then 7
  else 8

/-- Bit `i` of an octet, from the low end. -/
def bit (b : UInt8) (i : Nat) : Bool := b.toNat.testBit i

/-- `parse_path_key_usage`. -/
def parsePathKeyUsage (value : Bytes) (critical : Bool) :
    Except PathExtensionError KeyUsageMeta := do
  let bitString ← exactPathExtensionTlv 0x03 value "Key Usage"
  match bitString.value with
  | [] => .error (.malformed "Key Usage is empty")
  | unused :: bits =>
    if 7 < unused.toNat ∨ bits.isEmpty ∨ 2 < bits.length then
      .error (.malformed "Key Usage width")
    else
      let last := bits.getLast?.getD 0
      let unusedMask : UInt8 :=
        if unused.toNat = 0 then 0 else 0xFF >>> UInt8.ofNat (8 - unused.toNat)
      if last &&& unusedMask ≠ 0 ∨ last = 0 ∨ trailingZeros last ≠ unused.toNat then
        .error (.malformed "Key Usage is not a DER named bit list")
      else
        let first := bits.head?.getD 0
        let second := bits.tail.head?.getD 0
        if second &&& 0x7F ≠ 0 then .error (.malformed "Key Usage has unknown bits")
        else
          let keyUsage : KeyUsage :=
            { digitalSignature := bit first 7
              nonRepudiation := bit first 6
              keyEncipherment := bit first 5
              dataEncipherment := bit first 4
              keyAgreement := bit first 3
              keyCertSign := bit first 2
              crlSign := bit first 1
              encipherOnly := bit first 0
              decipherOnly := bit second 7 }
          .ok ⟨keyUsage, critical⟩

/-- The loop of `parse_path_extended_key_usage`: the purposes, each seen once. -/
def purposeLoop : List (Except BerError BerTlvAny) → List Bytes →
    Except PathExtensionError (List Bytes)
  | [], seen => .ok seen
  | .error _ :: _, _ => .error (.malformed "Extended Key Usage entry")
  | .ok purpose :: rest, seen =>
    if purpose.tag ≠ 0x06 then .error (.malformed "Extended Key Usage entry tag")
    else if !Oid.wellFormed purpose.value then .error (.malformed "Extended Key Usage OID")
    else if purpose.value ∈ seen then
      .error (.malformed "duplicate Extended Key Usage purpose")
    else purposeLoop rest (seen ++ [purpose.value])

/-- `parse_path_extended_key_usage`: OCSP signing, time stamping, anything else. -/
def parsePathExtendedKeyUsage (value : Bytes) :
    Except PathExtensionError (Bool × Bool × Bool) := do
  let outer ← exactPathExtensionTlv 0x30 value "Extended Key Usage"
  let seen ← purposeLoop (children outer.value) []
  if seen.isEmpty then .error (.malformed "Extended Key Usage is empty")
  else .ok (seen.contains Oid.kpOcspSigning, seen.contains Oid.kpTimeStamping,
    seen.any fun p => p ≠ Oid.kpOcspSigning ∧ p ≠ Oid.kpTimeStamping)

/-- `parse_path_ocsp_no_check`. -/
def parsePathOcspNoCheck (value : Bytes) (critical : Bool) : Except PathExtensionError Unit :=
  if critical then .error .invalidOcspNoCheck
  else match BerTlvAny.parse value with
    | .error _ => .error .invalidOcspNoCheck
    | .ok null =>
      if null.tag ≠ 0x05 ∨ !null.value.isEmpty ∨ null.size ≠ value.length then
        .error .invalidOcspNoCheck
      else .ok ()

/-! ## §3. The extension loop -/

/-- One `Extension` of the list: identifier, criticality, value. -/
structure PathExtension where
  oid : Bytes
  critical : Bool
  value : Bytes
  deriving Repr, DecidableEq

/-- `fields.next().ok_or(missing)?.map_err(encoding)?`. -/
def someField (missing encoding : String) :
    List (Except BerError BerTlvAny) → Except PathExtensionError
      (BerTlvAny × List (Except BerError BerTlvAny))
  | [] => .error (.malformed missing)
  | .ok t :: rest => .ok (t, rest)
  | .error _ :: _ => .error (.malformed encoding)

/-- The extnID of one entry, with the fields that follow it. -/
def extensionOid : Except BerError BerTlvAny → Except PathExtensionError
    (Bytes × List (Except BerError BerTlvAny))
  | .error _ => .error (.malformed "Extension encoding")
  | .ok extension => do
    if extension.tag ≠ 0x30 then .error (.malformed "Extension is not a SEQUENCE")
    let (oid, fields) ← someField "Extension has no OID" "Extension OID encoding"
      (children extension.value)
    if oid.tag ≠ 0x06 then .error (.malformed "Extension OID tag")
    if !Oid.wellFormed oid.value then .error (.malformed "Extension OID value")
    return (oid.value, fields)

/-- The criticality and the value of one entry, after its extnID. -/
def extensionValue (fields : List (Except BerError BerTlvAny)) :
    Except PathExtensionError (Bool × Bytes) := do
  let (next, fields) ← someField "Extension has no value" "Extension value encoding" fields
  let (critical, value, fields) ←
    if next.tag = 0x01 then do
      if next.value ≠ [0xFF] then
        .error (.malformed "critical BOOLEAN is not canonical TRUE")
      let (value, fields) ← someField "Extension has no value" "Extension value encoding" fields
      pure (true, value, fields)
    else pure (false, next, fields)
  if value.tag ≠ 0x04 then .error (.malformed "extnValue tag")
  if !fields.isEmpty then .error (.malformed "Extension has trailing fields")
  return (critical, value.value)

/-- What one well-formed extension contributes to the profile. -/
def applyExtension (profile : PathExtensionProfile) (e : PathExtension) :
    Except PathExtensionError PathExtensionProfile :=
  if e.oid = Oid.basicConstraints then do
    return { profile with basicConstraints := ← parsePathBasicConstraints e.value e.critical }
  else if e.oid = Oid.keyUsage then do
    return { profile with keyUsage := some (← parsePathKeyUsage e.value e.critical) }
  else if e.oid = Oid.extKeyUsage then do
    let (ocsp, ts, other) ← parsePathExtendedKeyUsage e.value
    return { profile with
      ocspSigningExtendedKeyUsage := ocsp
      timeStampingExtendedKeyUsage := ts
      otherExtendedKeyUsagePresent := other
      extendedKeyUsagePresent := true }
  else if e.oid = Oid.nameConstraints then
    .ok { profile with nameConstraintsPresent := true }
  else if e.oid = Oid.ocspNoCheck then do
    parsePathOcspNoCheck e.value e.critical
    return { profile with ocspNoCheckPresent := true }
  else if e.critical then .error .unsupportedCritical
  else .ok profile

/-- The loop of `path_extension_profile`. -/
def profileLoop : List (Except BerError BerTlvAny) → List Bytes → PathExtensionProfile →
    Except PathExtensionError PathExtensionProfile
  | [], _, profile => .ok profile
  | item :: rest, seen, profile => do
    let (oid, fields) ← extensionOid item
    -- a repeated identifier is refused before its value is read
    if oid ∈ seen then
      if oid = Oid.ocspNoCheck then .error .invalidOcspNoCheck else .error .duplicate
    else
      let (critical, value) ← extensionValue fields
      let profile ← applyExtension profile ⟨oid, critical, value⟩
      profileLoop rest (seen ++ [oid]) profile

/-- `path_extension_profile`. -/
def pathExtensionProfile (extensions : Bytes) : Except PathExtensionError PathExtensionProfile :=
  profileLoop (children extensions) [] {}

/-! ## §4. What an accepted extension list looks like -/

/-- One entry of the list, read whole. -/
def parseExtension (item : Except BerError BerTlvAny) :
    Except PathExtensionError PathExtension := do
  let (oid, fields) ← extensionOid item
  let (critical, value) ← extensionValue fields
  return ⟨oid, critical, value⟩

/-- The extensions the path builder acts on when they are critical. -/
def supportedCritical : List Bytes :=
  [Oid.basicConstraints, Oid.keyUsage, Oid.extKeyUsage, Oid.nameConstraints]

/-- A list of extensions as the parser accepts it: every entry reads, no identifier
    comes twice, and a critical entry is one the path builder acts on. -/
structure AcceptedExtensions (items : List (Except BerError BerTlvAny))
    (es : List PathExtension) : Prop where
  reads : items.map parseExtension = es.map .ok
  nodup : (es.map PathExtension.oid).Nodup
  critical : ∀ e ∈ es, e.critical → e.oid ∈ supportedCritical

theorem parsePathOcspNoCheck_critical {value : Bytes} {critical : Bool}
    (h : parsePathOcspNoCheck value critical = .ok ()) : critical = false := by
  cases critical with
  | false => rfl
  | true => exact absurd h (by simp [parsePathOcspNoCheck])

theorem applyExtension_critical {p p' : PathExtensionProfile} {e : PathExtension}
    (h : applyExtension p e = .ok p') (hc : e.critical) : e.oid ∈ supportedCritical := by
  unfold applyExtension at h
  split at h
  next ho => simp [supportedCritical, ho]
  split at h
  next ho => simp [supportedCritical, ho]
  split at h
  next ho => simp [supportedCritical, ho]
  split at h
  next ho => simp [supportedCritical, ho]
  split at h
  · -- id-pkix-ocsp-nocheck is refused when it is critical
    simp only [bind, Except.bind] at h
    split at h
    · exact absurd h (by simp)
    next u hu =>
      have := parsePathOcspNoCheck_critical hu
      simp [hc] at this
  · exact absurd h (by simp)

/-- **One turn of the loop**, read backwards: the entry reads, it is new, and it is
    applied. -/
theorem profileLoop_cons {item : Except BerError BerTlvAny}
    {rest : List (Except BerError BerTlvAny)} {seen : List Bytes}
    {p p' : PathExtensionProfile} (h : profileLoop (item :: rest) seen p = .ok p') :
    ∃ e q, parseExtension item = .ok e ∧ e.oid ∉ seen ∧ applyExtension p e = .ok q ∧
      profileLoop rest (seen ++ [e.oid]) q = .ok p' := by
  simp only [profileLoop, bind, Except.bind] at h
  split at h
  · exact absurd h (by simp)
  next v hOid =>
    split at h
    · split at h <;> exact absurd h (by simp)
    next hNew =>
      split at h
      · exact absurd h (by simp)
      next w hVal =>
        split at h
        · exact absurd h (by simp)
        next q hApply =>
          refine ⟨⟨v.1, w.1, w.2⟩, q, ?_, hNew, hApply, h⟩
          simp [parseExtension, bind, Except.bind, hOid, hVal, pure, Except.pure]

theorem profileLoop_spec {items : List (Except BerError BerTlvAny)} {seen : List Bytes}
    {p p' : PathExtensionProfile} (hs : seen.Nodup) (h : profileLoop items seen p = .ok p') :
    ∃ es : List PathExtension, items.map parseExtension = es.map .ok ∧
      (seen ++ es.map PathExtension.oid).Nodup ∧
      (∀ e ∈ es, e.critical → e.oid ∈ supportedCritical) ∧
      es.foldlM applyExtension p = .ok p' := by
  induction items generalizing seen p with
  | nil =>
    refine ⟨[], rfl, by simpa using hs, by simp, ?_⟩
    simpa [profileLoop, pure, Except.pure] using h
  | cons item rest ih =>
    obtain ⟨e, q, hParse, hNew, hApply, hRest⟩ := profileLoop_cons h
    have hs' : (seen ++ [e.oid]).Nodup := by
      rw [List.nodup_append]
      refine ⟨hs, by simp, ?_⟩
      intro a ha b hb
      rw [List.mem_singleton] at hb
      rintro rfl
      exact hNew (hb ▸ ha)
    obtain ⟨es, hReads, hNodup, hCrit, hFold⟩ := ih hs' hRest
    refine ⟨e :: es, by simp [hParse, hReads], by simpa using hNodup, ?_, ?_⟩
    · intro e' he'
      rcases List.mem_cons.mp he' with rfl | he'
      · exact applyExtension_critical hApply
      · exact hCrit e' he'
    · simp only [List.foldlM_cons, hApply, bind, Except.bind]
      exact hFold

/-- **Accepted extensions**: the whole field reads, without duplicates and without a
    critical extension the path builder does not act on. -/
theorem pathExtensionProfile_accepted {extensions : Bytes} {p : PathExtensionProfile}
    (h : pathExtensionProfile extensions = .ok p) :
    ∃ es, AcceptedExtensions (children extensions) es ∧ es.foldlM applyExtension {} = .ok p := by
  obtain ⟨es, hReads, hNodup, hCrit, hFold⟩ := profileLoop_spec List.nodup_nil h
  exact ⟨es, ⟨hReads, by simpa using hNodup, hCrit⟩, hFold⟩

end PathExtensions

end RefineId
