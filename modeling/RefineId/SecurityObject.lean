/-
  RefineId.SecurityObject — the hashes a travel document signs.
  ════════════════════════════════════════════════════════════════════════════

  `LdsSecurityObject::parse` of `crates/refineid-doc-sign/src/cms.rs`, and of its twin in
  `refineid-lib-core`: the third field of the object is a sequence of numbers and hashes, one for
  each data group.  Most of what does not fit is an error.  An element that is no sequence, or
  holds something else where the number or the hash stands, is passed over, and the number is
  gathered in 32 bits whatever its length and sign.

  Main results:
    • `accumulate_toNat`        : the number kept is the octets' value modulo 2³².
    • `dataGroupHashes_eq_ok`   : the list is what the elements' turns return, the others left out.
    • `parse_exact`             : when the list is the encoded sequence.
-/
import RefineId.Cms
import RefineId.BerRoundTrip

namespace RefineId

open Ber Lib Cms

namespace Lds

/-! ## §1. The parser -/

/-- `LdsSecurityObject`. -/
structure LdsSecurityObject where
  hashAlgorithm : HashAlg
  dataGroupHashes : List (UInt32 × Bytes)
  deriving Repr, DecidableEq

/-- `num = num.wrapping_shl(8) | u32::from(b)`, over the octets of the INTEGER. -/
def accumulate (octets : Bytes) : UInt32 :=
  octets.foldl (fun num b => num <<< 8 ||| b.toUInt32) 0

/-- One turn of the loop; `none` is its `continue`. -/
def dataGroupHash (dg : BerTlvAny) : Except CmsError (Option (UInt32 × Bytes)) := do
  if dg.tag ≠ 0x30 then return none
  let (num, dit) ← nextAny "DG hash missing number" (children dg.value)
  if num.tag ≠ 0x02 then return none
  let (hash, _) ← nextAny "DG hash missing OCTET STRING" dit
  if hash.tag ≠ 0x04 then return none
  return some (accumulate num.value, hash.value)

/-- `for dg in BerTlvIter::new(dgh_seq.value)`. -/
def dataGroupHashes : Fields → Except CmsError (List (UInt32 × Bytes))
  | [] => .ok []
  | .error e :: _ => .error (.ber e)
  | .ok dg :: rest => do
    let entry ← dataGroupHash dg
    let entries ← dataGroupHashes rest
    return entry.toList ++ entries

/-- `LdsSecurityObject::parse`. -/
def LdsSecurityObject.parse (der : Bytes) : Except CmsError LdsSecurityObject := do
  let outer ← (parseExpect 0x30 der).mapError .ber
  let (_version, it) ← nextAny "LDSSecurityObject missing version" (children outer.value)
  let (hashAlgSeq, it) ← nextTagged 0x30 "LDSSecurityObject missing hashAlgorithm"
    "hashAlgorithm not SEQUENCE" it
  let hashOid ← (parseExpect 0x06 hashAlgSeq.value).mapError
    fun _ => .unexpectedStructure "hashAlgorithm OID missing"
  let hashAlgorithm ← okOr .unsupportedDigestAlgorithm (hashFromOid hashOid.value)
  let (dghSeq, _) ← nextTagged 0x30 "LDSSecurityObject missing dataGroupHashValues"
    "dataGroupHashValues not SEQUENCE" it
  let hashes ← Lds.dataGroupHashes (children dghSeq.value)
  return ⟨hashAlgorithm, hashes⟩

/-! ## §2. What is encoded -/

/-- The number that the content of an INTEGER stands for, in two's complement. -/
def integerValue : Bytes → Option Int
  | [] => none
  | first :: rest =>
    some (beValue (first :: rest) - if first < 0x80 then 0 else 256 ^ (rest.length + 1))

/-- The element is a sequence of this number and this hash, and of nothing else. -/
structure IsDataGroupHash (element : BerTlvAny) (number : Int) (hash : Bytes) : Prop where
  sequence : element.tag = 0x30
  fields : ∃ num octets, children element.value = [.ok num, .ok octets] ∧
    num.tag = 0x02 ∧ integerValue num.value = some number ∧
    octets.tag = 0x04 ∧ octets.value = hash

/-- The third field of the object that `der` begins with is the sequence of these elements, one
    after the other. -/
def HashValues (der : Bytes) (elements : List BerTlvAny) : Prop :=
  ∃ outer version hashAlg values more, BerTlvAny.parse der = .ok outer ∧ outer.tag = 0x30 ∧
    children outer.value = .ok version :: .ok hashAlg :: .ok values :: more ∧ values.tag = 0x30 ∧
    ∃ parts : List Bytes, values.value = parts.flatten ∧ List.Forall₂ IsElement parts elements

/-- **The elements are what the reader gives.** -/
theorem hashValues_unique {der : Bytes} {elements others : List BerTlvAny}
    (h : HashValues der elements) (h' : HashValues der others) : elements = others := by
  obtain ⟨outer, version, hashAlg, values, more, hder, -, hfields, -, parts, hparts, hel⟩ := h
  obtain ⟨outer', version', hashAlg', values', more', hder', -, hfields', -, parts', hparts',
    hel'⟩ := h'
  obtain rfl : outer = outer' := Except.ok.inj (hder.symm.trans hder')
  rw [hfields] at hfields'
  obtain ⟨-, hfields'⟩ := List.cons.inj hfields'
  obtain ⟨-, hfields'⟩ := List.cons.inj hfields'
  obtain ⟨hvalues, -⟩ := List.cons.inj hfields'
  obtain rfl : values = values' := Except.ok.inj hvalues
  have hsame : (elements.map .ok : Fields) = others.map .ok := by
    rw [← children_flatten hel, ← children_flatten hel', ← hparts, ← hparts']
  exact List.map_injective_iff.mpr (fun _ _ => Except.ok.inj) hsame

/-! ## §3. The loop -/

theorem nextAny_eq_ok {missing : String} {fields rest : Fields} {t : BerTlvAny}
    (h : nextAny missing fields = .ok (t, rest)) : fields = .ok t :: rest := by
  cases fields with
  | nil => cases h
  | cons item items =>
    cases item with
    | error e => cases h
    | ok u =>
      obtain ⟨rfl, rfl⟩ := Prod.mk.inj (Except.ok.inj h)
      rfl

theorem nextTagged_eq_ok {tag : Nat} {missing wrong : String} {fields rest : Fields}
    {t : BerTlvAny} (h : nextTagged tag missing wrong fields = .ok (t, rest)) :
    fields = .ok t :: rest ∧ t.tag = tag := by
  obtain ⟨⟨u, items⟩, hnext, h⟩ := bind_eq_ok.mp h
  obtain ⟨_, htag, h⟩ := bind_eq_ok.mp h
  obtain ⟨rfl, rfl⟩ := Prod.mk.inj (pure_eq_ok.mp h)
  exact ⟨nextAny_eq_ok hnext, of_decide_eq_true (ensure_eq_ok.mp htag)⟩

theorem parseExpect_eq_ok {tag : Nat} {bytes : Bytes} {t : BerTlvAny}
    (h : parseExpect tag bytes = .ok t) : BerTlvAny.parse bytes = .ok t ∧ t.tag = tag := by
  obtain ⟨u, hparse, h⟩ := bind_eq_ok.mp h
  split at h
  · cases h
  next htag =>
    obtain rfl := Except.ok.inj h
    exact ⟨hparse, not_not.mp htag⟩

theorem shift_or_toNat (num : UInt32) (b : UInt8) :
    (num <<< 8 ||| b.toUInt32).toNat = (num.toNat * 256 + b.toNat) % 2 ^ 32 := by
  have hb : b.toNat < 2 ^ 8 := b.toNat_lt
  have hshift : (num <<< 8).toNat = (num.toNat % 2 ^ 24) <<< 8 := by
    rw [UInt32.toNat_shiftLeft, Nat.shiftLeft_eq, Nat.shiftLeft_eq]
    show num.toNat * 2 ^ 8 % 2 ^ 32 = num.toNat % 2 ^ 24 * 2 ^ 8
    omega
  rw [UInt32.toNat_or, hshift, UInt8.toNat_toUInt32, ← Nat.shiftLeft_add_eq_or_of_lt hb,
    Nat.shiftLeft_eq]
  omega

/-- **The number kept is the octets' value modulo 2³².** -/
theorem accumulate_toNat (octets : Bytes) :
    (accumulate octets).toNat = beValue octets % 2 ^ 32 := by
  induction octets using List.reverseRecOn with
  | nil => rfl
  | append_singleton front b ih =>
    have hstep : accumulate (front ++ [b]) = accumulate front <<< 8 ||| b.toUInt32 := by
      simp [accumulate, List.foldl_append]
    have hvalue : beValue (front ++ [b]) = beValue front * 256 + b.toNat := by
      simp [beValue, List.foldl_append]
    rw [hstep, shift_or_toNat, ih, hvalue]
    omega

/-- A number in range is kept as it is. -/
theorem accumulate_of_integerValue {octets : Bytes} {number : Int}
    (h : integerValue octets = some number) (hnonneg : 0 ≤ number) (hlt : number < 2 ^ 32) :
    ((accumulate octets).toNat : Int) = number := by
  cases octets with
  | nil => cases h
  | cons first rest =>
    obtain rfl := Option.some.inj h
    have hbound := beValue_lt (first :: rest)
    rw [List.length_cons] at hbound
    rw [accumulate_toNat]
    split at hnonneg
    next hclear =>
      rw [if_pos hclear] at hlt ⊢
      omega
    next hset =>
      -- a negative number is no number in range
      have hpow : ((beValue (first :: rest) : Nat) : Int) < 256 ^ (rest.length + 1) := by
        exact_mod_cast hbound
      omega

/-- **One turn**: a number in range and a hash are kept. -/
theorem dataGroupHash_of_isDataGroupHash {dg : BerTlvAny} {number : Int} {hash : Bytes}
    (h : IsDataGroupHash dg number hash) :
    ∃ num : UInt32, dataGroupHash dg = .ok (some (num, hash)) ∧
      (0 ≤ number → number < 2 ^ 32 → (num.toNat : Int) = number) := by
  obtain ⟨htag, num, octets, hfields, hnum, hvalue, hoctets, rfl⟩ := h
  refine ⟨accumulate num.value, ?_, accumulate_of_integerValue hvalue⟩
  simp [dataGroupHash, htag, hfields, nextAny, hnum, hoctets, bind, Except.bind, pure, Except.pure]

/-- **The loop**: every element is read, and its turn does not fail. -/
theorem dataGroupHashes_eq_ok {items : Fields} {entries : List (UInt32 × Bytes)}
    (h : dataGroupHashes items = .ok entries) :
    ∃ (elements : List BerTlvAny) (turns : List (Option (UInt32 × Bytes))),
      items = elements.map .ok ∧
      List.Forall₂ (fun element turn => dataGroupHash element = .ok turn) elements turns ∧
      entries = turns.flatMap Option.toList := by
  induction items generalizing entries with
  | nil =>
    obtain rfl : [] = entries := Except.ok.inj h
    exact ⟨[], [], rfl, .nil, rfl⟩
  | cons item items ih =>
    cases item with
    | error e => cases h
    | ok dg =>
      obtain ⟨turn, hturn, h⟩ := bind_eq_ok.mp h
      obtain ⟨more, hmore, h⟩ := bind_eq_ok.mp h
      obtain rfl := pure_eq_ok.mp h
      obtain ⟨elements, turns, rfl, hturns, rfl⟩ := ih hmore
      exact ⟨dg :: elements, turn :: turns, rfl, .cons hturn hturns, rfl⟩

/-- The list when every element is a number in range and a hash. -/
theorem forall₂_of_wellFormed {elements : List BerTlvAny}
    {turns : List (Option (UInt32 × Bytes))}
    (hturns : List.Forall₂ (fun element turn => dataGroupHash element = .ok turn) elements turns)
    (hall : ∀ element ∈ elements, ∃ number hash, IsDataGroupHash element number hash ∧
      0 ≤ number ∧ number < 2 ^ 32) :
    List.Forall₂ (fun element (entry : UInt32 × Bytes) =>
      IsDataGroupHash element entry.1.toNat entry.2) elements (turns.flatMap Option.toList) := by
  induction hturns with
  | nil => exact .nil
  | @cons element turn elements turns hturn _ ih =>
    obtain ⟨number, hash, his, hnonneg, hlt⟩ := hall element (by simp)
    obtain ⟨num, hkept, hnum⟩ := dataGroupHash_of_isDataGroupHash his
    obtain rfl := Except.ok.inj (hturn.symm.trans hkept)
    rw [← hnum hnonneg hlt] at his
    exact .cons his (ih fun other hother => hall other (List.mem_cons_of_mem _ hother))

/-! ## §4. When the list is the encoded sequence -/

/-- What an accepted object holds, and the turns its elements took. -/
theorem parse_eq_ok {der : Bytes} {lds : LdsSecurityObject}
    (h : LdsSecurityObject.parse der = .ok lds) :
    ∃ (elements : List BerTlvAny) (turns : List (Option (UInt32 × Bytes))),
      HashValues der elements ∧
      List.Forall₂ (fun element turn => dataGroupHash element = .ok turn) elements turns ∧
      lds.dataGroupHashes = turns.flatMap Option.toList := by
  obtain ⟨outer, houter, h⟩ := bind_eq_ok.mp h
  obtain ⟨⟨version, it⟩, hversion, h⟩ := bind_eq_ok.mp h
  obtain ⟨⟨hashAlgSeq, it'⟩, halg, h⟩ := bind_eq_ok.mp h
  obtain ⟨hashOid, -, h⟩ := bind_eq_ok.mp h
  obtain ⟨hashAlgorithm, -, h⟩ := bind_eq_ok.mp h
  obtain ⟨⟨dghSeq, more⟩, hdgh, h⟩ := bind_eq_ok.mp h
  obtain ⟨entries, hentries, h⟩ := bind_eq_ok.mp h
  obtain rfl := pure_eq_ok.mp h
  obtain ⟨elements, turns, hitems, hturns, hlist⟩ := dataGroupHashes_eq_ok hentries
  obtain ⟨hparse, htag⟩ := parseExpect_eq_ok (mapError_eq_ok_iff.mp houter)
  obtain ⟨rfl, -⟩ := nextTagged_eq_ok halg
  obtain ⟨rfl, hseq⟩ := nextTagged_eq_ok hdgh
  exact ⟨elements, turns, ⟨outer, version, hashAlgSeq, dghSeq, more, hparse, htag,
    nextAny_eq_ok hversion, hseq, forall₂_isElement_of_children hitems⟩, hturns, hlist⟩

/-- **The list is the encoded sequence**, element by element, exactly when every element is a
    number that fits and a hash. -/
theorem parse_exact {der : Bytes} {lds : LdsSecurityObject}
    (h : LdsSecurityObject.parse der = .ok lds) :
    ∃ elements, HashValues der elements ∧ (∀ others, HashValues der others → others = elements) ∧
      (List.Forall₂ (fun element entry => IsDataGroupHash element entry.1.toNat entry.2)
          elements lds.dataGroupHashes ↔
        ∀ element ∈ elements, ∃ number hash, IsDataGroupHash element number hash ∧
          0 ≤ number ∧ number < 2 ^ 32) := by
  obtain ⟨elements, turns, hvalues, hturns, hlist⟩ := parse_eq_ok h
  refine ⟨elements, hvalues, fun others hothers => hashValues_unique hothers hvalues, ?_⟩
  constructor
  · intro hsame element helement
    obtain ⟨n, hn, rfl⟩ := List.getElem_of_mem helement
    have hlen := hsame.length_eq
    have hentry := hsame.get hn (by omega)
    exact ⟨_, _, hentry, by omega, by exact_mod_cast (UInt32.toNat_lt _)⟩
  · intro hall
    rw [hlist]
    exact forall₂_of_wellFormed hturns hall

/-- An object with these octets for its data groups, and SHA-256. -/
def securityObject (values : Bytes) : Bytes :=
  [0x30, UInt8.ofNat (18 + values.length), 0x02, 0x01, 0x00, 0x30, 0x0B, 0x06, 0x09, 0x60, 0x86,
    0x48, 0x01, 0x65, 0x03, 0x04, 0x02, 0x01, 0x30, UInt8.ofNat values.length] ++ values

/-- The hashes of the data groups 1 and 2. -/
def twoGroups : Bytes :=
  securityObject [0x30, 0x06, 0x02, 0x01, 0x01, 0x04, 0x01, 0xAA,
    0x30, 0x06, 0x02, 0x01, 0x02, 0x04, 0x01, 0xBB]

/-- Two data groups are read as they are encoded. -/
theorem twoGroups_read :
    ∃ elements, HashValues twoGroups elements ∧
      List.Forall₂ (fun element (entry : UInt32 × Bytes) =>
        IsDataGroupHash element entry.1.toNat entry.2) elements [(1, [0xAA]), (2, [0xBB])] := by
  have hparse : LdsSecurityObject.parse twoGroups =
      .ok ⟨.sha256, [(1, [0xAA]), (2, [0xBB])]⟩ := by decide
  obtain ⟨elements, hvalues, -, hexact⟩ := parse_exact hparse
  have helements : elements = [⟨0x30, [0x02, 0x01, 0x01, 0x04, 0x01, 0xAA], 8⟩,
      ⟨0x30, [0x02, 0x01, 0x02, 0x04, 0x01, 0xBB], 8⟩] := by
    refine hashValues_unique hvalues ⟨_, _, _, _, _, rfl, rfl, rfl, rfl, ?_⟩
    exact forall₂_isElement_of_children rfl
  refine ⟨elements, hvalues, hexact.mpr ?_⟩
  subst helements
  intro element helement
  simp only [List.mem_cons, List.not_mem_nil, or_false] at helement
  obtain rfl | rfl := helement
  · exact ⟨1, [0xAA], ⟨rfl, _, _, rfl, rfl, rfl, rfl, rfl⟩, by decide, by decide⟩
  · exact ⟨2, [0xBB], ⟨rfl, _, _, rfl, rfl, rfl, rfl, rfl⟩, by decide, by decide⟩

/-- The hashes of the data groups 2³² + 1 and 1, and a third element with no hash. -/
def lostGroups : Bytes :=
  securityObject [0x30, 0x0A, 0x02, 0x05, 0x01, 0x00, 0x00, 0x00, 0x01, 0x04, 0x01, 0xAA,
    0x30, 0x06, 0x02, 0x01, 0x01, 0x04, 0x01, 0xBB, 0x30, 0x05, 0x02, 0x01, 0x02, 0x05, 0x00]

/-- **Two numbers collapse, and the third element is passed over.** -/
theorem lostGroups_read :
    LdsSecurityObject.parse lostGroups = .ok ⟨.sha256, [(1, [0xAA]), (1, [0xBB])]⟩ ∧
      ∃ first second third, HashValues lostGroups [first, second, third] ∧
        IsDataGroupHash first (2 ^ 32 + 1) [0xAA] ∧ IsDataGroupHash second 1 [0xBB] ∧
        ¬ List.Forall₂ (fun element (entry : UInt32 × Bytes) =>
          IsDataGroupHash element entry.1.toNat entry.2) [first, second, third]
            [(1, [0xAA]), (1, [0xBB])] := by
  refine ⟨by decide, ⟨0x30, [0x02, 0x05, 0x01, 0x00, 0x00, 0x00, 0x01, 0x04, 0x01, 0xAA], 12⟩,
    ⟨0x30, [0x02, 0x01, 0x01, 0x04, 0x01, 0xBB], 8⟩, ⟨0x30, [0x02, 0x01, 0x02, 0x05, 0x00], 7⟩,
    ⟨_, _, _, _, _, rfl, rfl, rfl, rfl, forall₂_isElement_of_children rfl⟩,
    ⟨rfl, _, _, rfl, rfl, rfl, rfl, rfl⟩, ⟨rfl, _, _, rfl, rfl, rfl, rfl, rfl⟩, ?_⟩
  intro hsame
  exact absurd hsame.length_eq (by decide)

end Lds

end RefineId
