/-
  RefineId.SecureChannel — host and card over the protected channel.
  ════════════════════════════════════════════════════════════════════════════

  The card's half of secure messaging, written down from its side: it bumps its counter
  once for a command, takes the command apart, checks the MAC and decrypts; it bumps again
  for its answer, and builds that from the same objects.  Host and card share the keys and
  the counter.

  Main results:
    • `decodeShortApdu_iff`    : the splitter accepts the four short forms and no others.
    • `card_recovers_command`  : the card accepts every wrapped command and finds in it the
                                 command that was wrapped.
    • `unwrap_response`        : what the host accepts is authenticated, is determined by
                                 the authenticated objects, and every answer of the card
                                 comes out as the card meant it.
-/
import RefineId.SecureMessaging

namespace RefineId

namespace SecureMessaging

open Ber Lib

/-! ## §1. The short forms of a command -/

/-- **The four short forms**: header; header and `Le`; header, `Lc` and data; and all of
    them.  The data of the third is not empty, since `Lc` alone would be an `Le`. -/
inductive ShortForm : Bytes → Bytes → Bytes → Option UInt8 → Prop where
  | case1 {header : Bytes} (h : header.length = 4) : ShortForm header header [] none
  | case2 {header : Bytes} (le : UInt8) (h : header.length = 4) :
      ShortForm (header ++ [le]) header [] (some le)
  | case3 {header data : Bytes} (h : header.length = 4) (hne : data ≠ [])
      (hmax : data.length ≤ 255) :
      ShortForm (header ++ UInt8.ofNat data.length :: data) header data none
  | case4 {header data : Bytes} (le : UInt8) (h : header.length = 4) (hmax : data.length ≤ 255) :
      ShortForm (header ++ UInt8.ofNat data.length :: data ++ [le]) header data (some le)

theorem toNat_ofNat_length {data : Bytes} (h : data.length ≤ 255) :
    (UInt8.ofNat data.length).toNat = data.length := by
  rw [uint8_ofNat_toNat]
  omega

/-- A short form is split into the parts it was made of. -/
theorem ShortForm.decode {plain header data : Bytes} {le : Option UInt8}
    (h : ShortForm plain header data le) :
    decodeShortApdu plain = some (data, le) ∧ plain.take 4 = header ∧ header.length = 4 := by
  cases h with
  | case1 h => exact ⟨by simp [decodeShortApdu, h], by simp [← h], h⟩
  | case2 le h =>
    exact ⟨by simp [decodeShortApdu, h], by simp [← h], h⟩
  | case3 h hne hmax =>
    refine ⟨?_, by simp [← h], h⟩
    have hpos : 0 < data.length := List.length_pos_iff.mpr hne
    have h4 : (header ++ UInt8.ofNat data.length :: data)[4]? = some (UInt8.ofNat data.length) := by
      simp [← h]
    have hdrop : (header ++ UInt8.ofNat data.length :: data).drop 5 = data := by
      rw [show 5 = header.length + 1 by omega, ← List.drop_drop]
      simp
    have hlen : (header ++ UInt8.ofNat data.length :: data).length = 5 + data.length := by
      simp [h]
      omega
    unfold decodeShortApdu
    rw [if_neg (by omega), if_neg (by omega), h4]
    simp [hlen, toNat_ofNat_length hmax, hdrop]
  | case4 le h hmax =>
    have hassoc : header ++ UInt8.ofNat data.length :: data ++ [le]
        = header ++ UInt8.ofNat data.length :: (data ++ [le]) := by simp
    rw [hassoc]
    refine ⟨?_, by simp [← h], h⟩
    have h4 : (header ++ UInt8.ofNat data.length :: (data ++ [le]))[4]?
        = some (UInt8.ofNat data.length) := by simp [← h]
    have hdrop : (header ++ UInt8.ofNat data.length :: (data ++ [le])).drop 5 = data ++ [le] := by
      rw [show 5 = header.length + 1 by omega, ← List.drop_drop]
      simp
    have hlen : (header ++ UInt8.ofNat data.length :: (data ++ [le])).length
        = 5 + data.length + 1 := by
      simp [h]
      omega
    have hlast : (header ++ UInt8.ofNat data.length :: (data ++ [le]))[5 + data.length]?
        = some le := by
      rw [← List.getElem?_drop, hdrop]
      simp
    unfold decodeShortApdu
    rw [if_neg (by omega), if_neg (by omega), h4]
    simp [hlen, toNat_ofNat_length hmax, hdrop]
    exact (List.getElem?_eq_some_iff.mp hlast).2

theorem split_at_lc {plain : Bytes} {lc : UInt8} (h : plain[4]? = some lc) :
    plain = plain.take 4 ++ lc :: plain.drop 5 := by
  obtain ⟨hlt, hget⟩ := List.getElem?_eq_some_iff.mp h
  have hdrop : plain.drop 4 = lc :: plain.drop 5 := by
    rw [List.drop_eq_getElem_cons hlt, hget]
  rw [← hdrop, List.take_append_drop]

/-- What is split is a short form. -/
theorem shortForm_of_decode {plain data : Bytes} {le : Option UInt8}
    (h : decodeShortApdu plain = some (data, le)) : ShortForm plain (plain.take 4) data le := by
  unfold decodeShortApdu at h
  split at h
  next h4 =>
    injection h with h
    injection h with hdata hle
    rw [← hdata, ← hle, List.take_of_length_le (by omega)]
    exact .case1 h4
  next h4 =>
    split at h
    next h5 =>
      obtain ⟨b, hb, h⟩ := Option.map_eq_some_iff.mp h
      injection h with hdata hle
      have hrest : plain.drop 5 = [] := List.drop_eq_nil_of_le (by omega)
      have hsplit : plain = plain.take 4 ++ [b] := by
        have := split_at_lc hb
        rwa [hrest] at this
      rw [← hdata, ← hle]
      nth_rewrite 1 [hsplit]
      exact .case2 b (by rw [List.length_take]; omega)
    next h5 =>
      obtain ⟨lc, hlc, h⟩ := Option.bind_eq_some_iff.mp h
      have hbig : 4 < plain.length := (List.getElem?_eq_some_iff.mp hlc).1
      have hmax : lc.toNat < 256 := lc.toNat_lt
      have hheader : (plain.take 4).length = 4 := by rw [List.length_take]; omega
      simp only [Option.ite_none_left_eq_some] at h
      obtain ⟨hroom, h⟩ := h
      have hlen : ((plain.drop 5).take lc.toNat).length = lc.toNat := by
        rw [List.length_take, List.length_drop]
        omega
      have hofNat : UInt8.ofNat ((plain.drop 5).take lc.toNat).length = lc := by
        rw [hlen, UInt8.ofNat_toNat]
      split at h
      next hend =>
        injection h with h
        injection h with hdata hle
        have hall : (plain.drop 5).take lc.toNat = plain.drop 5 :=
          List.take_of_length_le (by rw [List.length_drop]; omega)
        have hsplit : plain = plain.take 4 ++ UInt8.ofNat data.length :: data := by
          rw [← hdata, hofNat, hall]
          exact split_at_lc hlc
        have hne : data ≠ [] := by
          intro hnil
          rw [← hdata] at hnil
          rw [hnil] at hlen
          simp at hlen
          omega
        rw [← hle]
        nth_rewrite 1 [hsplit]
        exact .case3 hheader hne (by rw [← hdata, hlen]; omega)
      next hend =>
        simp only [Option.ite_none_right_eq_some, Option.map_eq_some_iff] at h
        obtain ⟨hone, b, hb, h⟩ := h
        injection h with hdata hle
        have hlast : plain.drop 5 = data ++ [b] := by
          rw [← hdata]
          have hdrop : (plain.drop 5).drop lc.toNat = [b] := by
            rw [List.drop_drop]
            obtain ⟨hlt, hget⟩ := List.getElem?_eq_some_iff.mp hb
            rw [List.drop_eq_getElem_cons hlt, hget, List.drop_eq_nil_of_le (by omega)]
          rw [← hdrop, List.take_append_drop]
        have hsplit : plain = plain.take 4 ++ UInt8.ofNat data.length :: data ++ [b] := by
          rw [List.append_assoc, List.cons_append, ← hlast, ← hdata, hofNat]
          exact split_at_lc hlc
        rw [← hle]
        nth_rewrite 1 [hsplit]
        exact .case4 b hheader (by rw [← hdata, hlen]; omega)

/-- **The splitter accepts the four short forms and no others.** -/
theorem decodeShortApdu_iff {plain data : Bytes} {le : Option UInt8} :
    decodeShortApdu plain = some (data, le) ↔ ShortForm plain (plain.take 4) data le :=
  ⟨shortForm_of_decode, fun h => h.decode.1⟩

/-! ## §2. The card's side -/

/-- A command as the card understood it; `data` is absent when there was no DO87. -/
structure CardCommand where
  header : Bytes
  data : Option Bytes
  le : Option UInt8
  deriving Repr, DecidableEq

/-- The protected `Le`: absent, or one octet. -/
def protectedLe : Option Bytes → Option (Option UInt8)
  | none => some none
  | some [le] => some (some le)
  | some _ => none

section
variable (aes : Aes)

/-- **The card takes a wrapped command**: counter up, short split, objects, MAC over
    counter, padded header, DO87 and DO97, then decryption.  `none` is a refusal. -/
def cardAccept (s : SmSession) (wrapped : Bytes) : Option CardCommand := do
  let s := s.incrementSsc
  let (body, _) ← decodeShortApdu wrapped
  let header := wrapped.take 4
  let objects ← (collect id (children body)).toOption
  let do87 := lastObject 0x87 objects
  let do97 := lastObject 0x97 objects
  let do8E ← lastObject 0x8E objects
  let expected := aes256CmacTruncated aes s.kMac
    (commandMacInput s header (optionalObject 0x87 do87) (optionalObject 0x97 do97))
  guard (do8E = expected)
  let data ← (decryptBody aes s do87).toOption
  let le ← protectedLe do97
  return ⟨header, do87.map fun _ => data, le⟩

/-- The value of DO87.  A card may seal an empty body too, or leave it out; a command
    leaves it out. -/
def sealedDo87 (s : SmSession) (sealEmpty : Bool) (body : Bytes) : Option Bytes :=
  if body = [] ∧ sealEmpty = false then none
  else some (0x01 :: aes.cbcEncrypt s.kEnc (s.iv aes) (iso78164Pad body))

/-- **The card builds its answer**: counter up, body encrypted, status, and the MAC over
    counter, DO87 and DO99.  `none` when the body is too long for an object. -/
def cardRespond (s : SmSession) (sealEmpty : Bool) (body : Bytes) (sw1 sw2 : UInt8) :
    Option Bytes :=
  let s := s.incrementSsc
  let do87 := sealedDo87 aes s sealEmpty body
  let tag := aes256CmacTruncated aes s.kMac (responseMacInput s do87 [sw1, sw2])
  if ∀ v ∈ do87, v.length < 2 ^ 32 then
    some (optionalObject 0x87 do87 ++ dataObject 0x99 [sw1, sw2] ++ dataObject 0x8E tag)
  else none

end

/-! ## §3. Reading objects back -/

/-- The element an object is read as. -/
def element (tag : UInt8) (value : Bytes) : BerTlvAny :=
  ⟨tag.toNat, value, (dataObject tag value).length⟩

theorem children_dataObject {tag : UInt8} {value rest : Bytes} (hTag : tag.toNat % 32 ≠ 31)
    (hlen : value.length < 2 ^ 32) :
    children (dataObject tag value ++ rest) = .ok (element tag value) :: children rest :=
  children_tlv hTag (tlv_dataObject hlen)

theorem children_optionalObject {tag : UInt8} {value : Option Bytes} {rest : Bytes}
    (hTag : tag.toNat % 32 ≠ 31) (hlen : ∀ v ∈ value, v.length < 2 ^ 32) :
    children (optionalObject tag value ++ rest)
      = (value.toList.map (element tag)).map .ok ++ children rest := by
  cases value with
  | none => rfl
  | some v => exact children_dataObject hTag (hlen v rfl)

/-- The objects of a command or an answer: an optional one before two others. -/
theorem lastObject_element {tag : Nat} {tag' : UInt8} {value : Bytes} (rest : List BerTlvAny) :
    lastObject tag (rest ++ [element tag' value]) =
      if tag'.toNat = tag then some value else lastObject tag rest :=
  lastObject_append tag rest (element tag' value)

theorem lastObject_optional (tag : Nat) (tag' : UInt8) (value : Option Bytes)
    (rest : List BerTlvAny) :
    lastObject tag (rest ++ value.toList.map (element tag')) =
      if tag'.toNat = tag then value.or (lastObject tag rest) else lastObject tag rest := by
  cases value with
  | none => simp
  | some v =>
    rw [Option.toList_some, List.map_singleton, lastObject_element]
    simp

/-- The objects of a command or an answer, found by their tags. -/
theorem lastObject_three {middle : UInt8} {tag : Nat} (htag : middle.toNat = tag)
    (h87 : tag ≠ 0x87) (h8E : tag ≠ 0x8E) (do87 between : Option Bytes) (do8E : Bytes) :
    let objects := do87.toList.map (element 0x87) ++ between.toList.map (element middle) ++
      [element 0x8E do8E]
    lastObject 0x87 objects = do87 ∧ lastObject tag objects = between ∧
      lastObject 0x8E objects = some do8E := by
  intro objects
  have hfirst : ∀ tag, lastObject tag (do87.toList.map (element 0x87))
      = if 0x87 = tag then do87 else none := by
    intro tag
    simpa [lastObject] using lastObject_optional tag 0x87 do87 []
  simp only [objects, lastObject_element, lastObject_optional, hfirst, htag]
  simp [h87, h87.symm, h8E.symm]

/-- Decryption undoes encryption, padding included. -/
theorem decryptBody_sealed (aes : Aes) (s : SmSession) (body : Bytes) :
    decryptBody aes s (some (0x01 :: aes.cbcEncrypt s.kEnc (s.iv aes) (iso78164Pad body)))
      = .ok body := by
  have haligned : (iso78164Pad body).length % 16 = 0 := by
    rw [length_iso78164Pad, Nat.mul_mod_left]
  have hcipher : (aes.cbcEncrypt s.kEnc (s.iv aes) (iso78164Pad body)).length % 16 = 0 := by
    rw [aes.length_cbcEncrypt _ _ _ haligned, haligned]
  simp [decryptBody, aes256CbcDecryptNoPadding, hcipher, aes.cbcDecrypt_cbcEncrypt _ _ _ haligned,
    iso78164Unpad_pad]

/-! ## §4. Commands -/

/-- The header of a protected command: `CLA` with the secure-messaging bits. -/
def smHeader : Bytes → Bytes
  | [] => []
  | cla :: rest => (cla ||| 0x0C) :: rest

section
variable (aes : Aes) {E : Type}

theorem commandDo87_eq (s : SmSession) (data : Bytes) :
    (commandDo87 aes s data : Except (SmError E) Bytes)
      = .ok (optionalObject 0x87 (sealedDo87 aes s false data)) := by
  by_cases h : data = []
  · simp [commandDo87, sealedDo87, h, optionalObject]
  · rw [commandDo87_of_ne_nil aes s h]
    simp [sealedDo87, h, optionalObject]

theorem length_sealedDo87 (s : SmSession) (sealEmpty : Bool) (body : Bytes) :
    ∀ v ∈ sealedDo87 aes s sealEmpty body, v.length = (body.length / 16 + 1) * 16 + 1 := by
  intro v hv
  have haligned : (iso78164Pad body).length % 16 = 0 := by
    rw [length_iso78164Pad, Nat.mul_mod_left]
  unfold sealedDo87 at hv
  split at hv
  · simp at hv
  · rw [Option.mem_some] at hv
    rw [← hv, List.length_cons, aes.length_cbcEncrypt _ _ _ haligned, length_iso78164Pad]

theorem decryptBody_sealedDo87 (s : SmSession) (sealEmpty : Bool) (body : Bytes) :
    decryptBody aes s (sealedDo87 aes s sealEmpty body) = .ok body := by
  unfold sealedDo87
  split
  next h => rw [h.1]; rfl
  · exact decryptBody_sealed aes s body

theorem protectedLe_map (le : Option UInt8) : protectedLe (le.map fun le => [le]) = some le := by
  cases le <;> rfl

/-- What the card sees when it walks the data field of a protected command. -/
theorem children_commandBody (s : SmSession) (header : Bytes) {data : Bytes} (le : Option UInt8)
    (hdata : data.length ≤ 255) :
    children (commandBody aes s header (optionalObject 0x87 (sealedDo87 aes s false data))
        (commandDo97 le)) =
      ((sealedDo87 aes s false data).toList.map (element 0x87) ++
        (le.map fun le => [le]).toList.map (element 0x97) ++
        [element 0x8E (aes256CmacTruncated aes s.kMac (commandMacInput s header
          (optionalObject 0x87 (sealedDo87 aes s false data)) (commandDo97 le)))]).map .ok := by
  have h87 : ∀ v ∈ sealedDo87 aes s false data, v.length < 2 ^ 32 := by
    intro v hv
    rw [length_sealedDo87 aes s false data v hv]
    omega
  have h97 : ∀ v ∈ le.map fun le => [le], v.length < 2 ^ 32 := by
    intro v hv
    obtain ⟨b, -, rfl⟩ := Option.map_eq_some_iff.mp hv
    norm_num
  unfold commandBody
  generalize hmac : aes256CmacTruncated aes s.kMac (commandMacInput s header
    (optionalObject 0x87 (sealedDo87 aes s false data)) (commandDo97 le)) = mac
  have h8E : mac.length < 2 ^ 32 := by
    rw [← hmac, length_cmacTruncated]
    decide
  rw [List.append_assoc, children_optionalObject (by decide) h87, commandDo97,
    children_optionalObject (by decide) h97, ← List.append_nil (dataObject 0x8E mac),
    children_dataObject (by decide) h8E, children_nil]
  simp

/-- **The card recovers what was protected.** -/
theorem cardAccept_protectCommand {s : SmSession} {header data wrapped : Bytes}
    {le : Option UInt8} (hheader : header.length = 4) (hdata : data.length ≤ 255)
    (h : (protectCommand aes s.incrementSsc header data le : Except (SmError E) Bytes) =
      .ok wrapped) :
    cardAccept aes s wrapped = some ⟨header, if data = [] then none else some data, le⟩ := by
  rw [protectCommand_eq aes _ _ le (commandDo87_eq aes _ data)] at h
  have hobjects := (collect_eq_ok (f := id)).mpr
    (children_commandBody aes s.incrementSsc header le hdata)
  obtain ⟨h87, h97, h8E⟩ := lastObject_three (show UInt8.toNat 0x97 = 0x97 from rfl) (by decide)
    (by decide) (sealedDo87 aes s.incrementSsc false data) (le.map fun le => [le])
    (aes256CmacTruncated aes s.incrementSsc.kMac (commandMacInput s.incrementSsc header
      (optionalObject 0x87 (sealedDo87 aes s.incrementSsc false data)) (commandDo97 le)))
  split at h
  next hfits =>
    -- the protected command is a short form with an `Le`
    have hform : ShortForm _ header _ (some 0x00) := .case4 0x00 hheader hfits
    obtain ⟨hsplit, htake, -⟩ := hform.decode
    rw [Except.ok.inj h] at hsplit htake
    unfold cardAccept
    simp only [hsplit, htake, Option.bind_eq_bind, Option.bind_some, hobjects, Except.toOption,
      h87, h97, h8E, decryptBody_sealedDo87, protectedLe_map]
    rw [← commandDo97]
    simp [guard, sealedDo87]
    split <;> rfl
  · cases h

/-- **The card recovers every command the host wraps**: its header with the
    secure-messaging bits, its data (absent exactly when empty) and its `Le`. -/
theorem card_recovers_command (s : SmSession) {plain header data wrapped : Bytes}
    {le : Option UInt8} (hplain : ShortForm plain header data le)
    (hwrap : (wrap aes s plain : _ × Except (SmError E) Bytes).2 = .ok wrapped) :
    cardAccept aes s wrapped =
      some ⟨smHeader header, if data = [] then none else some data, le⟩ := by
  obtain ⟨hdecode, hheader, -⟩ := hplain.decode
  obtain ⟨hnone, -⟩ | ⟨cla, ins, p1, p2, rest, data', le', hsplit, hdecode', hw⟩ :=
    wrap_cases (E := E) aes s plain
  · rw [hnone] at hdecode
    cases hdecode
  · rw [hdecode] at hdecode'
    obtain ⟨rfl, rfl⟩ := Prod.mk.inj (Option.some.inj hdecode')
    have hsm : smHeader header = [cla ||| 0x0C, ins, p1, p2] := by
      rw [← hheader, hsplit]
      rfl
    rw [hw] at hwrap
    rw [hsm]
    exact cardAccept_protectCommand aes rfl (decodeShortApdu_spec hdecode).2 hwrap

/-- The wrapped SELECT, as the real cipher protects it. -/
theorem select_recovered :
    (wrap sampleAes sampleSession selectCommand : _ × Except (SmError String) Bytes).2
        = .ok ([0x0C, 0xA4, 0x02, 0x0C, 0x1D, 0x87, 0x11, 0x01] ++ sampleCipher ++
          [0x8E, 0x08, 0xCA, 0xF5, 0x8F, 0x74, 0x6E, 0x1E, 0x24, 0x74, 0x00]) ∧
      cardAccept sampleAes sampleSession
        ([0x0C, 0xA4, 0x02, 0x0C, 0x1D, 0x87, 0x11, 0x01] ++ sampleCipher ++
          [0x8E, 0x08, 0xCA, 0xF5, 0x8F, 0x74, 0x6E, 0x1E, 0x24, 0x74, 0x00])
        = some ⟨[0x0C, 0xA4, 0x02, 0x0C], some [0x43, 0x31], none⟩ := by
  have hwrap : (wrap sampleAes sampleSession selectCommand :
      _ × Except (SmError String) Bytes).2
        = .ok ([0x0C, 0xA4, 0x02, 0x0C, 0x1D, 0x87, 0x11, 0x01] ++ sampleCipher ++
          [0x8E, 0x08, 0xCA, 0xF5, 0x8F, 0x74, 0x6E, 0x1E, 0x24, 0x74, 0x00]) := by
    decide +kernel
  have hplain : ShortForm selectCommand (selectCommand.take 4) [0x43, 0x31] none :=
    shortForm_of_decode (by decide)
  exact ⟨hwrap, card_recovers_command sampleAes sampleSession hplain hwrap⟩

/-! ## §5. Answers -/

/-- The octets the MAC covers determine the objects. -/
theorem responseMacInput_injective (s : SmSession) {do87 do87' : Option Bytes} {do99 do99' : Bytes}
    (h87 : ∀ v ∈ do87, v.length < 2 ^ 32) (h87' : ∀ v ∈ do87', v.length < 2 ^ 32)
    (h99 : do99.length < 2 ^ 32) (h99' : do99'.length < 2 ^ 32)
    (h : responseMacInput s do87 do99 = responseMacInput s do87' do99') :
    do87 = do87' ∧ do99 = do99' := by
  have hobjects : optionalObject 0x87 do87 ++ dataObject 0x99 do99
      = optionalObject 0x87 do87' ++ dataObject 0x99 do99' := by
    have hpad := pad_injective (by decide) 16 h
    rw [List.append_assoc, List.append_assoc] at hpad
    exact List.append_cancel_left hpad
  -- both sides are read back element by element
  have hread : ∀ {d : Option Bytes} {x : Bytes}, (∀ v ∈ d, v.length < 2 ^ 32) →
      x.length < 2 ^ 32 → children (optionalObject 0x87 d ++ dataObject 0x99 x)
        = (d.toList.map (element 0x87) ++ [element 0x99 x]).map .ok := by
    intro d x hd hx
    rw [children_optionalObject (by decide) hd, ← List.append_nil (dataObject 0x99 x),
      children_dataObject (by decide) hx, children_nil]
    simp
  have hlist : (do87.toList.map (element 0x87) ++ [element 0x99 do99])
      = (do87'.toList.map (element 0x87) ++ [element 0x99 do99']) := by
    have hok := hread h87 h99
    rw [hobjects, hread h87' h99'] at hok
    exact (List.map_injective_iff.mpr (fun a b hab => by injection hab) hok).symm
  obtain ⟨hinit, hlast⟩ := List.append_inj' hlist rfl
  constructor
  · cases do87 <;> cases do87' <;> simp_all [element]
  · simp only [element, List.cons.injEq, BerTlvAny.mk.injEq] at hlast
    exact hlast.1.2.1

/-- **Authenticity of answers**, in a session state. -/
structure ResponseAuthenticity (E : Type) (s : SmSession) : Prop where
  /-- What is accepted was taken from objects under a MAC that verified. -/
  authentic : ∀ response body sw1 sw2,
    (unwrap aes s response : _ × Except (SmError E) _).2 = .ok (body, sw1, sw2) →
      Authenticated aes s.incrementSsc response body sw1 sw2
  /-- Two accepted answers with the same octets under the MAC give the same result. -/
  determined : ∀ r r' body body' sw1 sw1' sw2 sw2',
    (unwrap aes s r : _ × Except (SmError E) _).2 = .ok (body, sw1, sw2) →
    (unwrap aes s r' : _ × Except (SmError E) _).2 = .ok (body', sw1', sw2') →
      ∃ do87 do87', Protects aes s.incrementSsc r do87 sw1 sw2 ∧
        Protects aes s.incrementSsc r' do87' sw1' sw2' ∧
        (responseMacInput s.incrementSsc do87 [sw1, sw2]
            = responseMacInput s.incrementSsc do87' [sw1', sw2'] →
          body = body' ∧ sw1 = sw1' ∧ sw2 = sw2')
  /-- Unknown objects, objects repeated before the last of their tag and the order of the
      objects make no difference. -/
  lastWins : ∀ r r' objects objects', children r = objects.map .ok →
    children r' = objects'.map .ok →
    (∀ tag ∈ [0x87, 0x99, 0x8E], lastObject tag objects = lastObject tag objects') →
      (unwrap aes s r : _ × Except (SmError E) _) = unwrap aes s r'
  /-- Nor does the outer status of an answer with a body. -/
  outerStatus : ∀ apdu raw sw1 sw2, raw.body ≠ [] →
    transmitOutcome aes s apdu (fun _ => (.ok (.response raw) : Except E _)) =
      transmitOutcome aes s apdu (fun _ => .ok (.response ⟨raw.body, sw1, sw2⟩))
  /-- Every answer the card builds comes out as the card meant it. -/
  roundTrip : ∀ sealEmpty body sw1 sw2 response,
    cardRespond aes s sealEmpty body sw1 sw2 = some response →
      (unwrap aes s response : _ × Except (SmError E) _).2 = .ok (body, sw1, sw2)
  /-- The card can build one for every body an object has room for. -/
  builds : ∀ sealEmpty body sw1 sw2, (body.length / 16 + 1) * 16 + 1 < 2 ^ 32 →
    (cardRespond aes s sealEmpty body sw1 sw2).isSome

/-- The authenticated objects are short enough to be encoded again. -/
theorem Protects.length_lt {s : SmSession} {response : Bytes} {do87 : Option Bytes}
    {sw1 sw2 : UInt8} (h : Protects aes s response do87 sw1 sw2) :
    ∀ v ∈ do87, v.length < 2 ^ 32 := by
  intro v hv
  obtain ⟨size, hmem⟩ := h.do87_some v hv
  exact mem_children_value_lt hmem

theorem authenticated_determined {s : SmSession} {r r' body body' : Bytes}
    {sw1 sw1' sw2 sw2' : UInt8} (h : Authenticated aes s r body sw1 sw2)
    (h' : Authenticated aes s r' body' sw1' sw2') :
    ∃ do87 do87', Protects aes s r do87 sw1 sw2 ∧ Protects aes s r' do87' sw1' sw2' ∧
      (responseMacInput s do87 [sw1, sw2] = responseMacInput s do87' [sw1', sw2'] →
        body = body' ∧ sw1 = sw1' ∧ sw2 = sw2') := by
  obtain ⟨do87, hprot, hbody⟩ := h
  obtain ⟨do87', hprot', hbody'⟩ := h'
  refine ⟨do87, do87', hprot, hprot', fun hmac => ?_⟩
  obtain ⟨rfl, hsw⟩ := responseMacInput_injective s (hprot.length_lt aes) (hprot'.length_lt aes)
    (by norm_num) (by norm_num) hmac
  rw [hbody] at hbody'
  injection hbody' with hbody'
  simp only [List.cons.injEq, and_true] at hsw
  exact ⟨hbody', hsw⟩

theorem unwrap_congr (s : SmSession) {r r' : Bytes} {objects objects' : List BerTlvAny}
    (hr : children r = objects.map .ok) (hr' : children r' = objects'.map .ok)
    (h : ∀ tag ∈ [0x87, 0x99, 0x8E], lastObject tag objects = lastObject tag objects') :
    (unwrap aes s r : _ × Except (SmError E) _) = unwrap aes s r' := by
  have hsame : (collectObjects r : Except (SmError E) Objects) = collectObjects r' := by
    rw [collectObjects_eq_ok.mpr ⟨objects, hr, rfl⟩, collectObjects_eq_ok.mpr ⟨objects', hr', rfl⟩,
      h 0x87 (by simp), h 0x99 (by simp), h 0x8E (by simp)]
  unfold unwrap
  rw [hsame]

theorem transmitOutcome_outerStatus (s : SmSession) (apdu : CommandApdu) {raw : ResponseApdu}
    (sw1 sw2 : UInt8) (h : raw.body ≠ []) :
    transmitOutcome aes s apdu (fun _ => (.ok (.response raw) : Except E _)) =
      transmitOutcome aes s apdu (fun _ => .ok (.response ⟨raw.body, sw1, sw2⟩)) := by
  unfold transmitOutcome
  split
  · rfl
  · simp only [if_neg h]

/-- **The host reads every answer the card builds.** -/
theorem unwrap_cardRespond (s : SmSession) {sealEmpty : Bool} {body response : Bytes}
    {sw1 sw2 : UInt8} (h : cardRespond aes s sealEmpty body sw1 sw2 = some response) :
    (unwrap aes s response : _ × Except (SmError E) _).2 = .ok (body, sw1, sw2) := by
  simp only [cardRespond, Option.ite_none_right_eq_some, Option.some.injEq] at h
  obtain ⟨h87, h⟩ := h
  generalize hmac : aes256CmacTruncated aes s.incrementSsc.kMac (responseMacInput s.incrementSsc
    (sealedDo87 aes s.incrementSsc sealEmpty body) [sw1, sw2]) = mac at h
  have h8E : mac.length < 2 ^ 32 := by
    rw [← hmac, length_cmacTruncated]
    norm_num
  have hchildren : children response
      = ((sealedDo87 aes s.incrementSsc sealEmpty body).toList.map (element 0x87) ++
        (some [sw1, sw2]).toList.map (element 0x99) ++ [element 0x8E mac]).map .ok := by
    rw [← h, List.append_assoc, children_optionalObject (by decide) h87,
      children_dataObject (by decide) (by norm_num), ← List.append_nil (dataObject 0x8E mac),
      children_dataObject (by decide) h8E, children_nil]
    simp
  have htag : UInt8.toNat 0x99 = 0x99 := rfl
  obtain ⟨hl87, hl99, hl8E⟩ := lastObject_three htag (by decide) (by decide)
    (sealedDo87 aes s.incrementSsc sealEmpty body) (some [sw1, sw2]) mac
  refine bind_eq_ok.mpr ⟨_, collectObjects_eq_ok.mpr ⟨_, hchildren, rfl⟩, ?_⟩
  rw [hl87, hl99, hl8E]
  refine (openObjects_eq_ok aes).mpr ⟨rfl, by rw [hmac], ?_⟩
  exact decryptBody_sealedDo87 aes _ sealEmpty body

theorem cardRespond_isSome (s : SmSession) (sealEmpty : Bool) {body : Bytes} (sw1 sw2 : UInt8)
    (h : (body.length / 16 + 1) * 16 + 1 < 2 ^ 32) :
    (cardRespond aes s sealEmpty body sw1 sw2).isSome := by
  have h87 : ∀ v ∈ sealedDo87 aes s.incrementSsc sealEmpty body, v.length < 2 ^ 32 := by
    intro v hv
    rw [length_sealedDo87 aes _ sealEmpty body v hv]
    exact h
  unfold cardRespond
  rw [if_pos h87]
  rfl

/-- **Answers are authentic**: an accepted one carried its body and status under a MAC that
    verified, nothing else of it makes a difference, and what the card builds is read as
    the card meant it. -/
theorem unwrap_response (s : SmSession) : ResponseAuthenticity aes E s where
  authentic _ _ _ _ h := unwrap_authenticated aes h
  determined _ _ _ _ _ _ _ _ h h' :=
    authenticated_determined aes (unwrap_authenticated aes h) (unwrap_authenticated aes h')
  lastWins _ _ _ _ hr hr' h := unwrap_congr aes s hr hr' h
  outerStatus apdu _ sw1 sw2 h := transmitOutcome_outerStatus aes s apdu sw1 sw2 h
  roundTrip _ _ _ _ _ h := unwrap_cardRespond aes s h
  builds sealEmpty _ sw1 sw2 h := cardRespond_isSome aes s sealEmpty sw1 sw2 h

/-- The answer `43 31 90 00`, as the real cipher protects it. -/
theorem sampleResponse_accepted :
    cardRespond sampleAes sampleSession false [0x43, 0x31] 0x90 0x00
        = some ([0x87, 0x11, 0x01] ++ sampleCipher ++
          [0x99, 0x02, 0x90, 0x00, 0x8E, 0x08, 0xAF, 0xF0, 0xCB, 0x7D, 0x1B, 0x71, 0xCA, 0xF1]) ∧
      (unwrap sampleAes sampleSession ([0x87, 0x11, 0x01] ++ sampleCipher ++
          [0x99, 0x02, 0x90, 0x00, 0x8E, 0x08, 0xAF, 0xF0, 0xCB, 0x7D, 0x1B, 0x71, 0xCA, 0xF1]) :
        _ × Except (SmError String) _).2 = .ok ([0x43, 0x31], 0x90, 0x00) := by
  have hbuilt : cardRespond sampleAes sampleSession false [0x43, 0x31] 0x90 0x00
      = some ([0x87, 0x11, 0x01] ++ sampleCipher ++
        [0x99, 0x02, 0x90, 0x00, 0x8E, 0x08, 0xAF, 0xF0, 0xCB, 0x7D, 0x1B, 0x71, 0xCA, 0xF1]) := by
    decide +kernel
  exact ⟨hbuilt, (unwrap_response sampleAes sampleSession).roundTrip _ _ _ _ _ hbuilt⟩

end

end SecureMessaging

end RefineId
