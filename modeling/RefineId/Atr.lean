/-
  RefineId.Atr — the answer to reset.
  ════════════════════════════════════════════════════════════════════════════

  `crates/refineid-lib-core/src/atr.rs` decomposes the bytes a card sends on reset into a
  typed structure and can write them out again.  What makes the format awkward is that
  it describes itself: each group's last byte says which bytes the next group has, and a
  check byte follows the historical bytes only when some group named a protocol other
  than T=0.

  Main results:
    • `readGroup_wire`   : a group is read as its nibble announces it.
    • `groupsLoop_post`  : the chain of groups, as the loop leaves it.
    • `new_spec`         : what an accepted answer looks like, byte for byte.
    • `new_lossless`     : parsing loses nothing.
-/
import RefineId.Ber
import RefineId.Lib.Loop
import RefineId.Lib.Reader

namespace RefineId.AnswerToReset

open Lib

/-! ## §1. The typed structure -/

/-- `ATR_MIN_LEN`. -/
def atrMinLen : Nat := 2

/-- `ATR_MAX_LEN`. -/
def atrMaxLen : Nat := 33

/-- `Convention`. -/
inductive Convention where
  | direct
  | inverse
  deriving Repr, DecidableEq

/-- `Convention::from_ts`. -/
def Convention.fromTs (ts : UInt8) : Option Convention :=
  if ts = 0x3B then some .direct
  else if ts = 0x3F then some .inverse
  else none

/-- `Convention::as_ts`. -/
def Convention.asTs : Convention → UInt8
  | .direct => 0x3B
  | .inverse => 0x3F

/-- `Yi`: which bytes of the next group follow. -/
structure Yi where
  nibble : UInt8
  deriving Repr, DecidableEq

/-- `Yi::from_nibble`. -/
def Yi.fromNibble (nibble : UInt8) : Yi := ⟨nibble &&& 0x0F⟩

/-- `Yi::ta_present`. -/
def Yi.taPresent (yi : Yi) : Bool := yi.nibble &&& 0b0001 != 0

/-- `Yi::tb_present`. -/
def Yi.tbPresent (yi : Yi) : Bool := yi.nibble &&& 0b0010 != 0

/-- `Yi::tc_present`. -/
def Yi.tcPresent (yi : Yi) : Bool := yi.nibble &&& 0b0100 != 0

/-- `Yi::td_present`. -/
def Yi.tdPresent (yi : Yi) : Bool := yi.nibble &&& 0b1000 != 0

/-- `Yi::any_present`. -/
def Yi.anyPresent (yi : Yi) : Bool := yi.nibble != 0

/-- `T0`. -/
structure T0 where
  y1 : Yi
  historicalByteCount : UInt8
  deriving Repr, DecidableEq

/-- `T0::from_byte`. -/
def T0.fromByte (b : UInt8) : T0 := ⟨Yi.fromNibble (b >>> 4), b &&& 0x0F⟩

/-- `T0::as_byte`. -/
def T0.asByte (t0 : T0) : UInt8 := (t0.y1.nibble <<< 4) ||| (t0.historicalByteCount &&& 0x0F)

/-- `TdByte`. -/
structure TdByte where
  byte : UInt8
  deriving Repr, DecidableEq

/-- `TdByte::protocol_indicator`. -/
def TdByte.protocolIndicator (td : TdByte) : UInt8 := td.byte &&& 0x0F

/-- `TdByte::next_yi`. -/
def TdByte.nextYi (td : TdByte) : Yi := Yi.fromNibble (td.byte >>> 4)

/-- `InterfaceByteGroup`.  TA, TB and TC are raw bytes here. -/
structure InterfaceByteGroup where
  ta : Option UInt8
  tb : Option UInt8
  tc : Option UInt8
  td : Option TdByte
  deriving Repr, DecidableEq

/-- `Atr`. -/
structure Atr where
  convention : Convention
  t0 : T0
  interfaceGroups : List InterfaceByteGroup
  historical : Bytes
  tck : Option UInt8
  deriving Repr, DecidableEq

/-- `AtrError`. -/
inductive AtrError where
  | tooShort (got : Nat)
  | tooLong (got : Nat)
  | invalidConvention (got : UInt8)
  | truncatedAtInterfaceBytes
  | truncatedAtHistoricalBytes
  | missingTck
  | trailingBytes (expectedEnd got : Nat)
  deriving Repr, DecidableEq

/-! ## §2. Writing -/

/-- The bytes of one group, those that are present. -/
def InterfaceByteGroup.wire (group : InterfaceByteGroup) : Bytes :=
  group.ta.toList ++ group.tb.toList ++ group.tc.toList ++ (group.td.map TdByte.byte).toList

/-- `Atr::to_wire_bytes`. -/
def Atr.toWireBytes (atr : Atr) : Bytes :=
  [atr.convention.asTs, atr.t0.asByte] ++ atr.interfaceGroups.flatMap InterfaceByteGroup.wire ++
    atr.historical ++ atr.tck.toList

/-- Whether a group names a protocol other than T=0. -/
def InterfaceByteGroup.otherProtocol (group : InterfaceByteGroup) : Bool :=
  group.td.any fun td => td.protocolIndicator != 0

/-- `Atr::supports_non_t0_protocol`. -/
def Atr.supportsNonT0Protocol (atr : Atr) : Bool :=
  atr.interfaceGroups.any InterfaceByteGroup.otherProtocol

/-! ## §3. Reading -/

/-- A byte that is there only when it is announced; `e` when the input ends before it. -/
def announcedByte (e : AtrError) (present : Bool) : Reader AtrError UInt8 (Option UInt8) :=
  if present then do
    let b ← Reader.next e
    return some b
  else return none

/-- One interface byte. -/
def interfaceByte (present : Bool) : Reader AtrError UInt8 (Option UInt8) :=
  announcedByte .truncatedAtInterfaceBytes present

/-- The bytes of one group. -/
def readGroup (yi : Yi) : Reader AtrError UInt8 InterfaceByteGroup := do
  let ta ← interfaceByte yi.taPresent
  let tb ← interfaceByte yi.tbPresent
  let tc ← interfaceByte yi.tcPresent
  let td ← interfaceByte yi.tdPresent
  return ⟨ta, tb, tc, td.map TdByte.mk⟩

/-- What the loop over the groups carries. -/
structure Chain where
  yi : Yi
  interfaceGroups : List InterfaceByteGroup
  anyNonT0Protocol : Bool
  rest : Bytes

/-- One turn of the loop: a group without TD is the last. -/
def groupsTurn (chain : Chain) : Turn Chain (Except AtrError Chain) :=
  if chain.yi.anyPresent then
    match readGroup chain.yi chain.rest with
    | .error e => .done (.error e)
    | .ok (group, rest) =>
      match group.td with
      | some td =>
        .next ⟨td.nextYi, chain.interfaceGroups ++ [group],
          chain.anyNonT0Protocol || td.protocolIndicator != 0, rest⟩
      | none => .done (.ok { chain with interfaceGroups := chain.interfaceGroups ++ [group], rest := rest })
  else .done (.ok chain)

/-- The interface byte chain.  Every turn that goes on takes a TD byte, so the fuel is
    never spent (`readGroups_isSome`). -/
def readGroups (y1 : Yi) (rest : Bytes) : Option (Except AtrError Chain) :=
  loop groupsTurn (rest.length + 1) ⟨y1, [], false, rest⟩

/-- The check byte, when one is due. -/
def readTck (due : Bool) : Reader AtrError UInt8 (Option UInt8) :=
  announcedByte .missingTck due

/-- `Atr::new`. -/
def Atr.new (bytes : Bytes) : Except AtrError Atr := do
  ensure (atrMinLen ≤ bytes.length) (.tooShort bytes.length)
  ensure (bytes.length ≤ atrMaxLen) (.tooLong bytes.length)
  let (ts, afterTs) ← Reader.next (.tooShort bytes.length) bytes
  let convention ← okOr (.invalidConvention ts) (Convention.fromTs ts)
  let (t0Byte, afterT0) ← Reader.next (.tooShort bytes.length) afterTs
  let t0 := T0.fromByte t0Byte
  let chain ← (readGroups t0.y1 afterT0).getD (.error .truncatedAtInterfaceBytes)
  let (historical, afterHistorical) ←
    Reader.take .truncatedAtHistoricalBytes t0.historicalByteCount.toNat chain.rest
  let (tck, rest) ← readTck chain.anyNonT0Protocol afterHistorical
  ensure rest.isEmpty (.trailingBytes (bytes.length - rest.length) bytes.length)
  .ok ⟨convention, t0, chain.interfaceGroups, historical, tck⟩

/-! ## §4. One group -/

/-- The bytes present are the ones the nibble announces. -/
structure Announces (yi : Yi) (group : InterfaceByteGroup) : Prop where
  ta : group.ta.isSome = yi.taPresent
  tb : group.tb.isSome = yi.tbPresent
  tc : group.tc.isSome = yi.tcPresent
  td : group.td.isSome = yi.tdPresent

theorem reads_announcedByte (e : AtrError) (present : Bool) :
    Reads (announcedByte e present) fun b items => b.isSome = present ∧ items = b.toList := by
  cases present with
  | false =>
    refine (reads_pure _).congr fun b items => ?_
    cases b <;> simp
  | true =>
    refine ((reads_next _).bind fun b => reads_pure (some b)).congr fun b items => ?_
    constructor
    · intro hx
      obtain ⟨first, _, _, rfl, ⟨rfl, rfl⟩, rfl⟩ := hx
      exact ⟨rfl, rfl⟩
    · intro hx
      obtain ⟨hsome, rfl⟩ := hx
      obtain ⟨first, rfl⟩ := Option.isSome_iff_exists.mp hsome
      exact ⟨first, [first], [], rfl, ⟨rfl, rfl⟩, rfl⟩

/-- **A group is read as its nibble announces it.** -/
theorem readGroup_wire (yi : Yi) : Reads (readGroup yi) fun group items =>
    Announces yi group ∧ items = group.wire := by
  refine ((reads_announcedByte _ yi.taPresent).bind fun ta =>
    (reads_announcedByte _ yi.tbPresent).bind fun tb =>
    (reads_announcedByte _ yi.tcPresent).bind fun tc =>
    (reads_announcedByte _ yi.tdPresent).bind fun td =>
    reads_pure (⟨ta, tb, tc, td.map TdByte.mk⟩ : InterfaceByteGroup)).congr fun group items => ?_
  constructor
  · intro hx
    obtain ⟨ta, _, _, ⟨hta, rfl⟩, ⟨tb, _, _, ⟨htb, rfl⟩, ⟨tc, _, _, ⟨htc, rfl⟩, ⟨td, _, _,
      ⟨htd, rfl⟩, ⟨rfl, rfl⟩, rfl⟩, rfl⟩, rfl⟩, rfl⟩ := hx
    refine ⟨⟨hta, htb, htc, by simpa using htd⟩, ?_⟩
    cases td <;> simp [InterfaceByteGroup.wire]
  · intro hx
    obtain ⟨⟨hta, htb, htc, htd⟩, rfl⟩ := hx
    obtain ⟨ta, tb, tc, td⟩ := group
    refine ⟨ta, _, _, ⟨hta, rfl⟩, ⟨tb, _, _, ⟨htb, rfl⟩, ⟨tc, _, _, ⟨htc, rfl⟩,
      ⟨td.map TdByte.byte, _, [], ⟨by simpa using htd, rfl⟩, ⟨?_, rfl⟩, rfl⟩, rfl⟩, rfl⟩, ?_⟩
    · cases td <;> rfl
    · simp [InterfaceByteGroup.wire]

/-! ## §5. The chain of groups -/

/-- Every group of the list has exactly the bytes announced before it: the first by `yi`,
    each later one by the TD of the group in front, and the chain ends where nothing more
    is announced. -/
def Announced : Yi → List InterfaceByteGroup → Prop
  | yi, [] => yi.anyPresent = false
  | yi, group :: groups => yi.anyPresent = true ∧ Announces yi group ∧
    match group.td with
    | some td => Announced td.nextYi groups
    | none => groups = []

/-- The groups read so far announce `yi` for the next one. -/
def Links : Yi → List InterfaceByteGroup → Yi → Prop
  | y1, [], yi => y1 = yi
  | y1, group :: groups, yi => y1.anyPresent = true ∧ Announces y1 group ∧
    ∃ td, group.td = some td ∧ Links td.nextYi groups yi

theorem Links.append {y1 yi : Yi} {groups more : List InterfaceByteGroup}
    (h : Links y1 groups yi) (hmore : Announced yi more) : Announced y1 (groups ++ more) := by
  induction groups generalizing y1 with
  | nil =>
    obtain rfl : y1 = yi := h
    exact hmore
  | cons group groups ih =>
    obtain ⟨hany, hgroup, td, htd, hlinks⟩ := h
    refine ⟨hany, hgroup, ?_⟩
    rw [htd]
    exact ih hlinks

theorem Links.concat {y1 yi : Yi} {groups : List InterfaceByteGroup} {group : InterfaceByteGroup}
    {td : TdByte} (h : Links y1 groups yi) (hany : yi.anyPresent = true)
    (hgroup : Announces yi group) (htd : group.td = some td) :
    Links y1 (groups ++ [group]) td.nextYi := by
  induction groups generalizing y1 with
  | nil =>
    obtain rfl : y1 = yi := h
    exact ⟨hany, hgroup, td, htd, rfl⟩
  | cons first groups ih =>
    obtain ⟨hfirst, hannounced, td', htd', hlinks⟩ := h
    exact ⟨hfirst, hannounced, td', htd', ih hlinks⟩

/-- What holds at the head of the loop: nothing of the input is lost, the flag says what
    the groups say, and the groups lead to the nibble at hand. -/
structure ChainInv (y1 : Yi) (input : Bytes) (chain : Chain) : Prop where
  wire : input = chain.interfaceGroups.flatMap InterfaceByteGroup.wire ++ chain.rest
  flag : chain.anyNonT0Protocol = chain.interfaceGroups.any InterfaceByteGroup.otherProtocol
  links : Links y1 chain.interfaceGroups chain.yi

/-- What holds when the loop has ended without an error. -/
structure ChainPost (y1 : Yi) (input : Bytes) (chain : Chain) : Prop where
  wire : input = chain.interfaceGroups.flatMap InterfaceByteGroup.wire ++ chain.rest
  flag : chain.anyNonT0Protocol = chain.interfaceGroups.any InterfaceByteGroup.otherProtocol
  announced : Announced y1 chain.interfaceGroups

/-- Everything a turn can do. -/
theorem groupsTurn_cases (chain : Chain) :
    (chain.yi.anyPresent = false ∧ groupsTurn chain = .done (.ok chain)) ∨
    (∃ e, groupsTurn chain = .done (.error e)) ∨
    (chain.yi.anyPresent = true ∧ ∃ group rest, Announces chain.yi group ∧
      chain.rest = group.wire ++ rest ∧
      ((∃ td, group.td = some td ∧ groupsTurn chain =
          .next ⟨td.nextYi, chain.interfaceGroups ++ [group],
            chain.anyNonT0Protocol || td.protocolIndicator != 0, rest⟩) ∨
        (group.td = none ∧ groupsTurn chain =
          .done (.ok ⟨chain.yi, chain.interfaceGroups ++ [group], chain.anyNonT0Protocol, rest⟩)))) := by
  unfold groupsTurn
  cases hany : chain.yi.anyPresent with
  | false => exact .inl ⟨rfl, by simp⟩
  | true =>
    right
    rw [if_pos rfl]
    cases hread : readGroup chain.yi chain.rest with
    | error e => exact .inl ⟨e, rfl⟩
    | ok p =>
      obtain ⟨group, rest⟩ := p
      obtain ⟨items, ⟨hgroup, rfl⟩, hrest⟩ := (readGroup_wire chain.yi _ _ _).mp hread
      refine .inr ⟨rfl, group, rest, hgroup, hrest, ?_⟩
      cases htd : group.td with
      | none => exact .inr ⟨rfl, by simp [htd]⟩
      | some td => exact .inl ⟨td, rfl, by simp [htd]⟩

theorem chainInv_next {y1 : Yi} {input : Bytes} (chain chain' : Chain)
    (h : ChainInv y1 input chain) (hturn : groupsTurn chain = .next chain') :
    ChainInv y1 input chain' := by
  rcases groupsTurn_cases chain with ⟨-, hdone⟩ | ⟨e, hdone⟩ |
    ⟨hany, group, rest, hgroup, hrest, ⟨td, htd, hnext⟩ | ⟨-, hdone⟩⟩
  · rw [hdone] at hturn
    cases hturn
  · rw [hdone] at hturn
    cases hturn
  · rw [hnext] at hturn
    injection hturn with hturn
    subst hturn
    refine ⟨?_, ?_, h.links.concat hany hgroup htd⟩
    · rw [h.wire, hrest]
      simp
    · simp [h.flag, InterfaceByteGroup.otherProtocol, htd]
  · rw [hdone] at hturn
    cases hturn

theorem chainInv_done {y1 : Yi} {input : Bytes} (chain : Chain) (r : Except AtrError Chain)
    (h : ChainInv y1 input chain) (hturn : groupsTurn chain = .done r) :
    ∀ last, r = .ok last → ChainPost y1 input last := by
  rintro last rfl
  rcases groupsTurn_cases chain with ⟨hnone, hdone⟩ | ⟨e, hdone⟩ |
    ⟨hany, group, rest, hgroup, hrest, ⟨td, -, hnext⟩ | ⟨htd, hdone⟩⟩
  · rw [hdone] at hturn
    injection hturn with hturn
    injection hturn with hturn
    subst hturn
    refine ⟨h.wire, h.flag, ?_⟩
    have happend := Links.append h.links (show Announced chain.yi [] from hnone)
    rwa [List.append_nil] at happend
  · rw [hdone] at hturn
    injection hturn with hturn
    cases hturn
  · rw [hnext] at hturn
    cases hturn
  · rw [hdone] at hturn
    injection hturn with hturn
    injection hturn with hturn
    subst hturn
    refine ⟨?_, ?_, h.links.append ⟨hany, hgroup, ?_⟩⟩
    · rw [h.wire, hrest]
      simp
    · simp [h.flag, InterfaceByteGroup.otherProtocol, htd]
    · rw [htd]

/-- **The chain of groups, as the loop leaves it.** -/
theorem groupsLoop_post {y1 : Yi} {input : Bytes} {chain : Chain}
    (h : readGroups y1 input = some (.ok chain)) : ChainPost y1 input chain := by
  have hinit : ChainInv y1 input ⟨y1, [], false, input⟩ := ⟨rfl, rfl, rfl⟩
  exact loop_post (ChainInv y1 input) (fun r => ∀ last, r = .ok last → ChainPost y1 input last)
    chainInv_next chainInv_done hinit h chain rfl

/-- A turn that goes on has taken at least a TD byte. -/
theorem groupsTurn_shrinks (chain chain' : Chain) (hturn : groupsTurn chain = .next chain') :
    chain'.rest.length < chain.rest.length := by
  rcases groupsTurn_cases chain with ⟨-, hdone⟩ | ⟨e, hdone⟩ |
    ⟨-, group, rest, -, hrest, ⟨td, htd, hnext⟩ | ⟨-, hdone⟩⟩
  · rw [hdone] at hturn
    cases hturn
  · rw [hdone] at hturn
    cases hturn
  · rw [hnext] at hturn
    injection hturn with hturn
    subst hturn
    rw [hrest]
    simp only [InterfaceByteGroup.wire, htd, List.length_append, Option.map_some,
      Option.toList_some, List.length_singleton]
    omega
  · rw [hdone] at hturn
    cases hturn

/-- **The fuel is never spent.** -/
theorem readGroups_isSome (y1 : Yi) (input : Bytes) : ∃ r, readGroups y1 input = some r :=
  loop_isSome (fun chain => chain.rest.length) groupsTurn_shrinks (Nat.lt_succ_self _)

/-! ## §6. The whole answer -/

theorem asTs_of_fromTs {ts : UInt8} {convention : Convention}
    (h : Convention.fromTs ts = some convention) : convention.asTs = ts := by
  unfold Convention.fromTs at h
  split at h
  next hdirect =>
    injection h with h
    rw [← h, hdirect]
    rfl
  · split at h
    next hinverse =>
      injection h with h
      rw [← h, hinverse]
      rfl
    · cases h

/-- The two nibbles of T0 are the whole byte. -/
theorem asByte_fromByte (b : UInt8) : (T0.fromByte b).asByte = b := by
  have hall : ∀ n : Fin 256, (T0.fromByte (UInt8.ofNat n)).asByte = UInt8.ofNat n := by
    decide +kernel
  have hb := hall ⟨b.toNat, b.toNat_lt⟩
  simpa using hb

theorem historicalByteCount_toNat (b : UInt8) :
    (T0.fromByte b).historicalByteCount.toNat = b.toNat % 16 := by
  have hand : (b &&& 0x0F).toNat = b.toNat &&& 0x0F := UInt8.toNat_and b 0x0F
  show (b &&& 0x0F).toNat = b.toNat % 16
  rw [hand]
  exact Nat.and_two_pow_sub_one_eq_mod b.toNat 4

/-- An accepted answer, byte for byte. -/
structure Accepted (bytes : Bytes) (atr : Atr) : Prop where
  wire : atr.toWireBytes = bytes
  t0 : ∃ ts t0Byte rest, bytes = ts :: t0Byte :: rest ∧ atr.t0 = T0.fromByte t0Byte ∧
    atr.historical.length = t0Byte.toNat % 16
  announced : Announced atr.t0.y1 atr.interfaceGroups
  tck : atr.tck.isSome = atr.supportsNonT0Protocol

/-- **What `Atr::new` accepts.** -/
theorem new_spec {bytes : Bytes} {atr : Atr} (h : Atr.new bytes = .ok atr) : Accepted bytes atr := by
  unfold Atr.new at h
  obtain ⟨-, -, h⟩ := bind_eq_ok.mp h
  obtain ⟨-, -, h⟩ := bind_eq_ok.mp h
  obtain ⟨⟨ts, afterTs⟩, hts, h⟩ := bind_eq_ok.mp h
  obtain ⟨convention, hconvention, h⟩ := bind_eq_ok.mp h
  obtain ⟨⟨t0Byte, afterT0⟩, ht0, h⟩ := bind_eq_ok.mp h
  obtain ⟨chain, hchain, h⟩ := bind_eq_ok.mp h
  obtain ⟨⟨historical, afterHistorical⟩, hhistorical, h⟩ := bind_eq_ok.mp h
  obtain ⟨⟨tck, rest⟩, htck, h⟩ := bind_eq_ok.mp h
  obtain ⟨_, hempty, h⟩ := bind_eq_ok.mp h
  obtain rfl : _ = atr := Except.ok.inj h
  obtain ⟨_, rfl, hbytes⟩ := (reads_next _ _ _ _).mp hts
  obtain ⟨_, rfl, hafterTs⟩ := (reads_next _ _ _ _).mp ht0
  obtain ⟨_, ⟨rfl, hcount⟩, hrest⟩ := (reads_take _ _ _ _ _).mp hhistorical
  obtain ⟨_, ⟨hdue, rfl⟩, hafter⟩ := (reads_announcedByte _ _ _ _ _).mp htck
  obtain rfl : rest = [] := by
    rw [ensure_eq_ok, List.isEmpty_iff] at hempty
    exact hempty
  obtain ⟨r, hr⟩ := readGroups_isSome (T0.fromByte t0Byte).y1 afterT0
  have hpost : ChainPost (T0.fromByte t0Byte).y1 afterT0 chain := by
    rw [hr, Option.getD_some] at hchain
    rw [hchain] at hr
    exact groupsLoop_post hr
  refine ⟨?_, ⟨ts, t0Byte, afterT0, ?_, rfl, ?_⟩, hpost.announced, ?_⟩
  · rw [hbytes, hafterTs, hpost.wire, hrest, hafter, Atr.toWireBytes,
      asTs_of_fromTs (okOr_eq_ok.mp hconvention), asByte_fromByte]
    simp
  · rw [hbytes, hafterTs]
    rfl
  · show _ = t0Byte.toNat % 16
    rw [← historicalByteCount_toNat]
    exact hcount
  · show tck.isSome = _
    rw [hdue, hpost.flag]
    rfl

/-- **Parsing loses nothing.**  The bytes are those of the typed structure, which parses
    again to itself and from no other bytes; the historical bytes are as many as the low
    nibble of T0 says, each group has the bytes announced for it, and a check byte is
    there exactly when some TD names a protocol other than T=0. -/
theorem new_lossless (bytes : Bytes) (atr : Atr) (h : Atr.new bytes = .ok atr) :
    Accepted bytes atr ∧ Atr.new atr.toWireBytes = .ok atr ∧
      ∀ bytes', Atr.new bytes' = .ok atr → bytes' = bytes := by
  have hspec := new_spec h
  refine ⟨hspec, by rw [hspec.wire, h], ?_⟩
  intro bytes' h'
  rw [← (new_spec h').wire, hspec.wire]

/-- The shortest answer that names T=1. -/
def t1Answer : Atr :=
  ⟨.direct, T0.fromByte 0x80, [⟨none, none, none, some ⟨0x01⟩⟩], [], some 0x81⟩

theorem new_lossless_t1 :
    Accepted [0x3B, 0x80, 0x01, 0x81] t1Answer ∧ Atr.new t1Answer.toWireBytes = .ok t1Answer ∧
      ∀ bytes', Atr.new bytes' = .ok t1Answer → bytes' = [0x3B, 0x80, 0x01, 0x81] :=
  new_lossless [0x3B, 0x80, 0x01, 0x81] t1Answer (by decide)

/-- The check byte is read but not checked: any value of it is accepted. -/
theorem tck_unchecked :
    ¬ ∀ (bytes : Bytes) (atr : Atr), Atr.new bytes = .ok atr →
      Accepted bytes atr ∧
        (atr.supportsNonT0Protocol = true → (bytes.drop 1).foldl (· ^^^ ·) 0 = 0) := by
  intro hclaim
  have hnew : Atr.new [0x3B, 0x80, 0x01, 0x00] = .ok { t1Answer with tck := some 0x00 } := by decide
  have hxor := (hclaim _ _ hnew).2 (by decide)
  revert hxor
  decide

end RefineId.AnswerToReset
