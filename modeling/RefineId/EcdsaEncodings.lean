/-
  RefineId.EcdsaEncodings — the two encodings of an ECDSA signature.
  ════════════════════════════════════════════════════════════════════════════

  A card hands out the coordinate pair `r || s`.  CMS wants a SEQUENCE of two INTEGERs,
  `ecdsa_signature_to_cms` in `crates/refineid-doc-sign/src/cades.rs`; XML wants the pair,
  `ecdsa_signature_to_xml` in `xades.rs`.  The first also lets through what it takes for
  DER already, and it takes the first octets' word for that.

  Main results:
    • `integerContent_isInteger` : a coordinate becomes the minimal non-negative INTEGER
                                   of its value.
    • `roundTrips_iff`           : a pair is encoded and comes back exactly if its first
                                   octets are not taken for a DER header.
-/
import Mathlib.Data.List.TakeWhile
import RefineId.BerRoundTrip
import RefineId.Cades

namespace RefineId

namespace Cades

open Ber

/-! ## §1. The encoding for XML -/

/-- The sign octet of a DER INTEGER is no magnitude. -/
def stripSign : Bytes → Bytes
  | 0x00 :: rest => rest
  | whole => whole

/-- One coordinate, padded on the left to the field size. -/
def padCoordinate (coordinateOctets : Nat) (value : Bytes) : Option Bytes :=
  let magnitude := stripSign value
  if magnitude.length ≤ coordinateOctets then
    some (List.replicate (coordinateOctets - magnitude.length) 0 ++ magnitude)
  else none

/-- `children.next()?.ok()?.expect::<Integer>().ok()?`. -/
def expectInteger : Except BerError BerTlvAny → Option Bytes
  | .ok t => if t.tag = 0x02 then some t.value else none
  | .error _ => none

/-- The two coordinates, when there are just two children. -/
def coordinatePair (coordinateOctets : Nat) : List (Except BerError BerTlvAny) → Option Bytes
  | [first, second] => do
    let r ← expectInteger first
    let s ← expectInteger second
    return (← padCoordinate coordinateOctets r) ++ (← padCoordinate coordinateOctets s)
  | _ => none

/-- `ecdsa_signature_to_xml`. -/
def ecdsaSignatureToXml (der : Bytes) (coordinateOctets : Nat) : Option Bytes := do
  let sequence ← (parseExpect 0x30 der).toOption
  coordinatePair coordinateOctets (children sequence.value)

/-! ## §2. What a pair should become -/

/-- **A minimal non-negative INTEGER**: its content octets and its value. -/
structure IsInteger (content : Bytes) (value : Nat) : Prop where
  nonneg : ∃ first rest, content = first :: rest ∧ first < 0x80
  minimal : ∀ second rest, content = 0x00 :: second :: rest → 0x80 ≤ second
  value_eq : beValue content = value

/-- **A DER SEQUENCE of two INTEGERs.** -/
def IsDerPair (der : Bytes) (r s : Nat) : Prop :=
  ∃ rContent sContent rTlv sTlv, IsInteger rContent r ∧ IsInteger sContent s ∧
    tlv 0x02 rContent = some rTlv ∧ tlv 0x02 sContent = some sTlv ∧
    tlv 0x30 (rTlv ++ sTlv) = some der

/-- **The round trip of a pair**: it becomes the SEQUENCE of its two values, and that
    becomes the pair again. -/
def RoundTrips (r s : Bytes) : Prop :=
  ∃ der, ecdsaSignatureToCms (r ++ s) = some der ∧ IsDerPair der (beValue r) (beValue s) ∧
    ecdsaSignatureToXml der r.length = some (r ++ s)

/-- Octets whose first ones `ecdsa_signature_to_cms` takes for the header of a SEQUENCE: of
    just their length, or with length octets it does not read. -/
def takenForDer (raw : Bytes) : Bool :=
  6 ≤ raw.length && raw.head? = some 0x30 &&
    match sequenceLength raw with
    | none => true
    | some (lenLen, payloadLen) => raw.length = 1 + lenLen + payloadLen

/-- The content octets `der_integer` writes. -/
def integerContent (coordinate : Bytes) : Bytes :=
  let magnitude := match coordinate.dropWhile fun b => b = 0 with
    | [] => [0]
    | first :: rest => first :: rest
  if (magnitude.headD 0) &&& 0x80 ≠ 0 then 0 :: magnitude else magnitude

/-- The octets an element takes whose content takes so many. -/
def tlvSize (len : Nat) : Nat :=
  1 + len + if len < 0x80 then 1 else if len ≤ 0xFF then 2 else if len ≤ 0xFFFF then 3
    else if len ≤ 0xFFFFFF then 4 else 5

/-- The two INTEGERs take no more than a length can say. -/
def pairFits (r s : Bytes) : Bool :=
  tlvSize (integerContent r).length + tlvSize (integerContent s).length < 2 ^ 32

/-! ## §3. Values of octets -/

/-- Leading zero octets do not count. -/
theorem beValue_dropWhile (c : Bytes) : beValue (c.dropWhile fun b => b = 0) = beValue c := by
  induction c with
  | nil => rfl
  | cons b rest ih =>
    by_cases hb : b = 0
    · rw [List.dropWhile_cons_of_pos (by simpa using hb), ih, beValue_cons, hb]
      simp
    · rw [List.dropWhile_cons_of_neg (by simpa using hb)]

/-- An octet that is not zero shows in the value. -/
theorem beValue_pos {c : Bytes} {b : UInt8} (hmem : b ∈ c) (hb : b ≠ 0) : 0 < beValue c := by
  obtain ⟨front, back, rfl⟩ := List.append_of_mem hmem
  have hpos : 0 < b.toNat := by
    rw [Nat.pos_iff_ne_zero]
    intro h
    exact hb (UInt8.toNat_inj.mp h)
  have hpow : 0 < 256 ^ back.length := Nat.pow_pos (by decide)
  have hprod := Nat.mul_pos hpos hpow
  rw [beValue_append, beValue_cons]
  omega

theorem signBit_iff (b : UInt8) : b &&& 0x80 ≠ 0 ↔ 0x80 ≤ b := by
  have hall : ∀ i : Fin 256, UInt8.ofFin i &&& 0x80 ≠ 0 ↔ 0x80 ≤ UInt8.ofFin i := by
    decide +kernel
  exact hall b.toFin

/-! ## §4. One coordinate -/

/-- The first octet that is not a leading zero. -/
theorem dropWhile_head_ne {c rest : Bytes} {first : UInt8}
    (h : (c.dropWhile fun b => b = 0) = first :: rest) : first ≠ 0 := by
  have hne : (c.dropWhile fun b => b = 0) ≠ [] := by
    rw [h]
    exact List.cons_ne_nil _ _
  have hhead := List.head_dropWhile_not (fun b : UInt8 => decide (b = 0)) hne
  simp only [h, List.head_cons] at hhead
  simpa using hhead

/-- The three shapes of the content: a zero, a sign octet before the magnitude, or the
    magnitude alone. -/
theorem integerContent_cases (c : Bytes) :
    ((c.dropWhile fun b => b = 0) = [] ∧ integerContent c = [0]) ∨
    ∃ first rest, (c.dropWhile fun b => b = 0) = first :: rest ∧ first ≠ 0 ∧
      ((0x80 ≤ first ∧ integerContent c = 0 :: first :: rest) ∨
        (first < 0x80 ∧ integerContent c = first :: rest)) := by
  unfold integerContent
  cases hdrop : (c.dropWhile fun b => b = 0) with
  | nil => exact .inl ⟨rfl, rfl⟩
  | cons first rest =>
    refine .inr ⟨first, rest, rfl, dropWhile_head_ne hdrop, ?_⟩
    by_cases hsign : first &&& 0x80 ≠ 0
    · exact .inl ⟨(signBit_iff first).mp hsign, if_pos hsign⟩
    · refine .inr ⟨?_, if_neg hsign⟩
      rw [signBit_iff, UInt8.not_le] at hsign
      exact hsign

/-- **A coordinate becomes the minimal non-negative INTEGER of its value.** -/
theorem integerContent_isInteger (c : Bytes) : IsInteger (integerContent c) (beValue c) := by
  have hvalue := beValue_dropWhile c
  obtain ⟨hzero, hcontent⟩ | ⟨first, rest, hdrop, hne, ⟨hsign, hcontent⟩ | ⟨hplain, hcontent⟩⟩ :=
    integerContent_cases c
  · rw [hzero] at hvalue
    rw [hcontent]
    exact ⟨⟨0, [], rfl, by decide⟩, nofun, hvalue⟩
  · rw [hdrop] at hvalue
    rw [hcontent]
    refine ⟨⟨0, first :: rest, rfl, by decide⟩, ?_, ?_⟩
    · intro second tail h
      cases h
      exact hsign
    · rw [← hvalue, beValue_cons 0]
      simp
  · rw [hdrop] at hvalue
    rw [hcontent]
    refine ⟨⟨first, rest, rfl, hplain⟩, ?_, hvalue⟩
    intro second tail h
    cases h
    exact absurd rfl hne

/-- Without the sign octet, the magnitude is what is left. -/
theorem stripSign_integerContent (c : Bytes) :
    stripSign (integerContent c) = c.dropWhile fun b => b = 0 := by
  obtain ⟨hzero, hcontent⟩ | ⟨first, rest, hdrop, hne, ⟨hsign, hcontent⟩ | ⟨hplain, hcontent⟩⟩ :=
    integerContent_cases c
  · rw [hzero, hcontent]
    rfl
  · rw [hdrop, hcontent]
    rfl
  · rw [hdrop, hcontent]
    unfold stripSign
    split
    next h =>
      cases h
      exact absurd rfl hne
    · rfl

/-- **A coordinate comes back** at its field size. -/
theorem padCoordinate_integerContent (c : Bytes) :
    padCoordinate c.length (integerContent c) = some c := by
  have hsplit := List.takeWhile_append_dropWhile (p := fun b : UInt8 => decide (b = 0)) (l := c)
  have hzeros : (c.takeWhile fun b => b = 0) =
      List.replicate (c.takeWhile fun b => b = 0).length 0 := by
    rw [List.eq_replicate_iff]
    refine ⟨rfl, ?_⟩
    intro b hb
    simpa using List.mem_takeWhile_imp hb
  have hlength : (c.takeWhile fun b => b = 0).length + (c.dropWhile fun b => b = 0).length
      = c.length := by
    rw [← List.length_append, hsplit]
  unfold padCoordinate
  rw [stripSign_integerContent]
  dsimp only
  rw [if_pos (by omega), ← hlength, Nat.add_sub_cancel, ← hzeros, hsplit]

/-! ## §5. Sizes -/

theorem tlv_isSome_iff (tag : UInt8) (value : Bytes) :
    (tlv tag value).isSome ↔ value.length < 2 ^ 32 := by
  constructor
  · intro h
    by_contra hlong
    have hnone : pushLength value.length = none := by
      unfold pushLength
      rw [if_neg (by omega), if_neg (by omega), if_neg (by omega), if_neg (by omega),
        if_neg (by omega)]
    rw [tlv, hnone] at h
    cases h
  · intro h
    rw [tlv, Option.isSome_map]
    exact pushLength_isSome h

theorem tlv_length_eq {tag : UInt8} {value out : Bytes} (h : tlv tag value = some out) :
    out.length = tlvSize value.length := by
  obtain ⟨len, hlen, rfl⟩ := Option.map_eq_some_iff.mp h
  have hsize : len.length = tlvSize value.length - 1 - value.length := by
    unfold pushLength at hlen
    unfold tlvSize
    repeat' split at hlen
    all_goals first
      | (injection hlen with hlen; rw [← hlen]; simp only [List.length_cons, List.length_nil]; grind)
      | cases hlen
  have hle : 1 + value.length ≤ tlvSize value.length := by
    unfold tlvSize
    omega
  simp only [List.cons_append, List.length_cons, List.length_append]
  omega

/-! ## §6. The pair -/

section
variable {r s : Bytes} (hlength : r.length = s.length)
include hlength

theorem encodePair_halves (hne : r ≠ []) :
    encodePair (r ++ s) = (do
      let rTlv ← tlv 0x02 (integerContent r)
      let sTlv ← tlv 0x02 (integerContent s)
      tlv 0x30 (rTlv ++ sTlv)) := by
  have hhalf : (r ++ s).length / 2 = r.length := by
    rw [List.length_append]
    omega
  have hguard : ((r ++ s).isEmpty || (r ++ s).length % 2 ≠ 0) = false := by
    rw [List.length_append, ← hlength]
    simp [hne]
    omega
  unfold encodePair
  rw [if_neg (by rw [hguard]; decide), hhalf, List.take_left, List.drop_left]
  rfl

/-- **A pair that fits is encoded**, and only such a pair. -/
theorem encodePair_isSome_iff (hne : r ≠ []) :
    (encodePair (r ++ s)).isSome ↔ pairFits r s = true := by
  rw [encodePair_halves hlength hne]
  have hcontent (len : Nat) : len < tlvSize len := by
    unfold tlvSize
    omega
  constructor
  · intro h
    obtain ⟨der, hder⟩ := Option.isSome_iff_exists.mp h
    simp only [Option.bind_eq_bind, Option.bind_eq_some_iff] at hder
    obtain ⟨rTlv, hr, sTlv, hs, hder⟩ := hder
    have hfits := (tlv_isSome_iff 0x30 (rTlv ++ sTlv)).mp (by rw [hder]; rfl)
    rw [List.length_append, tlv_length_eq hr, tlv_length_eq hs] at hfits
    exact decide_eq_true hfits
  · intro h
    have hfits := of_decide_eq_true h
    have hrSize := hcontent (integerContent r).length
    have hsSize := hcontent (integerContent s).length
    obtain ⟨rTlv, hr⟩ := Option.isSome_iff_exists.mp
      ((tlv_isSome_iff 0x02 (integerContent r)).mpr (by omega))
    obtain ⟨sTlv, hs⟩ := Option.isSome_iff_exists.mp
      ((tlv_isSome_iff 0x02 (integerContent s)).mpr (by omega))
    rw [hr, hs]
    refine (tlv_isSome_iff 0x30 (rTlv ++ sTlv)).mpr ?_
    rw [List.length_append, tlv_length_eq hr, tlv_length_eq hs]
    exact hfits

theorem encodePair_roundTrip (hne : r ≠ []) {der : Bytes} (h : encodePair (r ++ s) = some der) :
    IsDerPair der (beValue r) (beValue s) ∧ ecdsaSignatureToXml der r.length = some (r ++ s) := by
  rw [encodePair_halves hlength hne] at h
  simp only [Option.bind_eq_bind, Option.bind_eq_some_iff] at h
  obtain ⟨rTlv, hr, sTlv, hs, hder⟩ := h
  refine ⟨⟨_, _, rTlv, sTlv, integerContent_isInteger r, integerContent_isInteger s, hr, hs, hder⟩,
    ?_⟩
  have hsequence : parseExpect 0x30 der = .ok ⟨0x30, rTlv ++ sTlv, der.length⟩ := by
    have helement := (isElement_tlv 0x30 rfl (by decide) hder).parses
    unfold parseExpect
    rw [helement]
    rfl
  have hchildren : children (rTlv ++ sTlv) = [.ok ⟨0x02, integerContent r, rTlv.length⟩,
      .ok ⟨0x02, integerContent s, sTlv.length⟩] := by
    rw [children_element (isElement_tlv 0x02 rfl (by decide) hr),
      children_single (isElement_tlv 0x02 rfl (by decide) hs)]
  have hrPad := padCoordinate_integerContent r
  have hsPad := padCoordinate_integerContent s
  rw [← hlength] at hsPad
  unfold ecdsaSignatureToXml
  rw [hsequence]
  show coordinatePair r.length (children (rTlv ++ sTlv)) = _
  rw [hchildren]
  show (padCoordinate r.length (integerContent r)).bind _ = _
  rw [hrPad]
  show (padCoordinate r.length (integerContent s)).bind _ = _
  rw [hsPad]
  rfl

omit hlength in
theorem takenForDer_result (raw : Bytes) :
    (takenForDer raw = true ∧ ecdsaSignatureToCms raw = none) ∨
    (takenForDer raw = true ∧ raw.head? = some 0x30 ∧ ecdsaSignatureToCms raw = some raw) ∨
    (takenForDer raw = false ∧ ecdsaSignatureToCms raw = encodePair raw) := by
  unfold takenForDer ecdsaSignatureToCms
  by_cases hstart : (6 ≤ raw.length && raw.head? = some 0x30) = true
  · rw [if_pos hstart, hstart, Bool.true_and]
    cases hsequence : sequenceLength raw with
    | none => exact .inl ⟨rfl, rfl⟩
    | some lengths =>
      obtain ⟨lenLen, payloadLen⟩ := lengths
      dsimp only
      by_cases hwhole : raw.length = 1 + lenLen + payloadLen
      · rw [if_pos hwhole]
        have hhead : raw.head? = some 0x30 := by
          rw [Bool.and_eq_true, decide_eq_true_eq, decide_eq_true_eq] at hstart
          exact hstart.2
        exact .inr (.inl ⟨decide_eq_true hwhole, hhead, rfl⟩)
      · rw [if_neg hwhole]
        exact .inr (.inr ⟨decide_eq_false hwhole, rfl⟩)
  · rw [if_neg hstart, eq_false_of_ne_true hstart]
    exact .inr (.inr ⟨rfl, rfl⟩)

/-- **A pair is never its own encoding**: the INTEGER of a pair that begins like a SEQUENCE
    fills more than half of it, so that the other one's tag stands among the octets of `s`. -/
theorem not_isDerPair_self (hhead : (r ++ s).head? = some 0x30) :
    ¬ IsDerPair (r ++ s) (beValue r) (beValue s) := by
  intro h
  obtain ⟨rContent, sContent, rTlv, sTlv, hrInt, hsInt, hr, hs, hder⟩ := h
  obtain ⟨first, rest, rfl⟩ : ∃ first rest, r = first :: rest := by
    cases r with
    | nil =>
      rw [List.length_nil] at hlength
      rw [List.length_eq_zero_iff.mp hlength.symm] at hhead
      cases hhead
    | cons first rest => exact ⟨first, rest, rfl⟩
  have hfirst : first = 0x30 := by
    rw [List.cons_append, List.head?_cons] at hhead
    injection hhead
  -- `r` has no leading zero, so its INTEGER has as many octets at least
  have hrLong : rest.length < rContent.length := by
    have hlt := beValue_lt rContent
    rw [hrInt.value_eq, beValue_cons, hfirst] at hlt
    by_contra hshort
    have hpow : 256 ^ rContent.length ≤ 256 ^ rest.length :=
      Nat.pow_le_pow_right (by decide) (by omega)
    have htoNat : (0x30 : UInt8).toNat = 48 := rfl
    rw [htoNat] at hlt
    omega
  have hrSize := tlv_length hr
  have hderSize := tlv_length hder
  rw [List.length_append, List.length_append, ← hlength, List.length_cons] at hderSize
  obtain ⟨len, -, hsOut⟩ := Option.map_eq_some_iff.mp hs
  obtain ⟨derLen, -, hderOut⟩ := Option.map_eq_some_iff.mp hder
  -- so the second INTEGER, with its tag, stands within `s`
  have hsuffix : sTlv <:+ s := by
    have hlast : sTlv <:+ first :: rest ++ s := by
      rw [← hderOut]
      exact ⟨0x30 :: derLen ++ rTlv, by simp⟩
    refine List.suffix_of_suffix_length_le hlast (List.suffix_append _ _) ?_
    rw [← hlength, List.length_cons]
    omega
  obtain ⟨front, hfront⟩ := hsuffix
  have hvalue : beValue (front ++ (0x02 :: len)) * 256 ^ sContent.length + beValue sContent
      = beValue s := by
    rw [← beValue_append, ← hfront, ← hsOut]
    simp
  have hpos : 0 < beValue (front ++ (0x02 :: len)) :=
    beValue_pos (b := 0x02) (by simp) (by decide)
  have hpow : 0 < 256 ^ sContent.length := Nat.pow_pos (by decide)
  have hprod := Nat.mul_pos hpos hpow
  rw [hsInt.value_eq] at hvalue
  omega

/-- **When a pair makes the round trip**: exactly if there is one, its first octets are not
    taken for the header of a SEQUENCE, and its INTEGERs fit a length of 32 bits. -/
theorem roundTrips_iff :
    RoundTrips r s ↔ r ≠ [] ∧ takenForDer (r ++ s) = false ∧ pairFits r s = true := by
  constructor
  · intro h
    obtain ⟨der, hcms, hpair, hxml⟩ := h
    obtain ⟨-, hnone⟩ | ⟨-, hhead, hself⟩ | ⟨hplain, hencode⟩ := takenForDer_result (r ++ s)
    · rw [hnone] at hcms
      cases hcms
    · rw [hself] at hcms
      injection hcms with hcms
      rw [← hcms] at hpair
      exact absurd hpair (not_isDerPair_self hlength hhead)
    · have hne : r ≠ [] := by
        intro hr
        rw [hr, List.length_nil] at hlength
        rw [hr, List.length_eq_zero_iff.mp hlength.symm] at hcms
        cases hcms
      refine ⟨hne, hplain, (encodePair_isSome_iff hlength hne).mp ?_⟩
      rw [← hencode, hcms]
      rfl
  · intro h
    obtain ⟨hne, hplain, hfits⟩ := h
    obtain ⟨der, hder⟩ := Option.isSome_iff_exists.mp ((encodePair_isSome_iff hlength hne).mpr hfits)
    obtain ⟨hpair, hxml⟩ := encodePair_roundTrip hlength hne hder
    refine ⟨der, ?_, hpair, hxml⟩
    obtain ⟨htaken, -⟩ | ⟨htaken, -⟩ | ⟨-, hencode⟩ := takenForDer_result (r ++ s)
    · rw [hplain] at htaken
      cases htaken
    · rw [hplain] at htaken
      cases htaken
    · rw [hencode, hder]

end

/-- The pair of the repository's own test makes the round trip. -/
theorem roundTrips_iff_test : RoundTrips [0xFF, 0x01, 0x02, 0x03] [0x00, 0x00, 0x0A, 0x0B] := by
  refine (roundTrips_iff ?_).mpr ?_
  · decide
  · decide

/-- A P-256 pair that begins `30 3E` is let through as it is, one that begins `30 83` is
    refused: neither makes the round trip. -/
theorem not_roundTrips_header :
    ¬ RoundTrips (0x30 :: 0x3E :: List.replicate 30 1) (List.replicate 32 1) ∧
    ¬ RoundTrips (0x30 :: 0x83 :: List.replicate 30 1) (List.replicate 32 1) := by
  constructor
  · intro h
    obtain ⟨der, hcms, -, hxml⟩ := h
    have hself : ecdsaSignatureToCms (0x30 :: 0x3E :: List.replicate 30 1 ++ List.replicate 32 1) =
        some (0x30 :: 0x3E :: List.replicate 30 1 ++ List.replicate 32 1) := rfl
    rw [hself] at hcms
    injection hcms with hcms
    rw [← hcms] at hxml
    cases hxml
  · intro h
    obtain ⟨der, hcms, -⟩ := h
    cases hcms

end Cades

end RefineId
