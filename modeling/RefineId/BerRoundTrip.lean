/-
  RefineId.BerRoundTrip — the iterator gives back what the encoder took.
  ════════════════════════════════════════════════════════════════════════════

  `BerEncoder` appends elements under one- and two-octet tags; `BerTlvIter` is a
  separately written reader.  They meet at the octets of one element: what the
  encoder appends is read back as one element whatever follows, and a list of
  such elements is read back one by one.

  Main results:
    • `parse_append`          : what follows an element does not change it.
    • `children_flatten`      : a list of elements is read back element by element.
    • `encode_parts`          : the encoder appends one element for each record.
    • `iterates_children`     : the iterator ends on every input, having seen `children`.
    • `covers_children`       : its records stand one behind the other in the input.
    • `encode_iterates`       : the round trip, and what holds on octets of any origin.
    • `lengthForms_iff`       : which length octets the reader takes; the marker 0x80 is
                                read as a length of 128.
-/
import RefineId.Ber

namespace RefineId

namespace Ber

/-! ## §1. Elements -/

/-- One element that fills the octets. -/
structure IsElement (bytes : Bytes) (t : BerTlvAny) : Prop where
  parses : BerTlvAny.parse bytes = .ok t
  whole : t.size = bytes.length

theorem parseTag_append {bytes after : Bytes} {tag : Nat} (rest : Bytes)
    (h : parseTag bytes = .ok (tag, after)) : parseTag (bytes ++ rest) = .ok (tag, after ++ rest) := by
  cases bytes with
  | nil => cases h
  | cons first tl =>
    simp only [List.cons_append, parseTag] at h ⊢
    split at h
    next hlong =>
      cases tl with
      | nil => cases h
      | cons second tl =>
        obtain ⟨rfl, rfl⟩ : _ = tag ∧ tl = after := by simpa using h
        simp [hlong]
    next hshort =>
      obtain ⟨rfl, rfl⟩ : _ = tag ∧ tl = after := by simpa using h
      simp [hshort]

theorem parseLength_append {bytes after : Bytes} {len : Nat} (rest : Bytes)
    (h : parseLength bytes = .ok (len, after)) :
    parseLength (bytes ++ rest) = .ok (len, after ++ rest) := by
  cases bytes with
  | nil => cases h
  | cons first tl =>
    simp only [List.cons_append, parseLength] at h ⊢
    split at h
    next hshort =>
      obtain ⟨rfl, rfl⟩ : _ = len ∧ tl = after := by simpa using h
      simp [hshort]
    next hlong =>
      split at h
      · cases h
      next n hn =>
        split at h
        next hle =>
          obtain ⟨rfl, rfl⟩ : _ = len ∧ tl.drop n = after := by simpa using h
          have hle' : n ≤ (tl ++ rest).length := by
            rw [List.length_append]
            omega
          simp only [if_neg hlong, if_pos hle', List.take_append_of_le_length hle,
            List.drop_append_of_le_length hle]
        · cases h

/-- **What follows an element does not change it.** -/
theorem parse_append {bytes : Bytes} {t : BerTlvAny} (rest : Bytes)
    (h : BerTlvAny.parse bytes = .ok t) : BerTlvAny.parse (bytes ++ rest) = .ok t := by
  simp only [BerTlvAny.parse, bind, Except.bind] at h ⊢
  split at h
  · cases h
  next p htag =>
    obtain ⟨tag, afterTag⟩ := p
    rw [parseTag_append rest htag]
    dsimp only at h ⊢
    split at h
    · cases h
    next q hlen =>
      obtain ⟨len, body⟩ := q
      rw [parseLength_append rest hlen]
      dsimp only at h ⊢
      split at h
      next hfits =>
        have hfits' : len ≤ (body ++ rest).length := by
          rw [List.length_append]
          omega
        rw [if_pos hfits', ← h, List.take_append_of_le_length hfits, List.length_append,
          List.length_append, Nat.add_sub_add_right]
      · cases h

theorem isElement_tlv {tag : UInt8} {value out : Bytes} (n : Nat) (hn : tag.toNat = n)
    (htag : tag.toNat % 32 ≠ 31) (h : tlv tag value = some out) :
    IsElement out ⟨n, value, out.length⟩ := by
  subst hn
  refine ⟨?_, rfl⟩
  have hp : BerTlvAny.parse (out ++ []) = .ok ⟨tag.toNat, value, out.length⟩ := parse_tlv htag h
  rwa [List.append_nil] at hp

theorem IsElement.ne_nil {bytes : Bytes} {t : BerTlvAny} (h : IsElement bytes t) : bytes ≠ [] := by
  rintro rfl
  cases h.parses

/-- **The iterator gives back an element, and goes on after it.** -/
theorem children_element {bytes : Bytes} {t : BerTlvAny} (h : IsElement bytes t) (rest : Bytes) :
    children (bytes ++ rest) = .ok t :: children rest := by
  obtain ⟨b, bs, hb⟩ := List.exists_cons_of_ne_nil h.ne_nil
  have hp := parse_append rest h.parses
  rw [hb] at hp
  rw [hb, List.cons_append, children_cons, ← List.cons_append, hp]
  dsimp only
  rw [h.whole, hb, List.drop_left]

theorem children_single {bytes : Bytes} {t : BerTlvAny} (h : IsElement bytes t) :
    children bytes = [.ok t] := by
  have hrest := children_element h []
  rwa [List.append_nil] at hrest

theorem children_flatten {parts : List Bytes} {elements : List BerTlvAny}
    (h : List.Forall₂ IsElement parts elements) :
    children parts.flatten = elements.map .ok := by
  induction h with
  | nil => rfl
  | cons hpart _ ih => rw [List.flatten_cons, children_element hpart, ih, List.map_cons]

theorem parseTag_head {bytes after : Bytes} {tag : Nat} (h : parseTag bytes = .ok (tag, after)) :
    ∃ head, head ≠ [] ∧ bytes = head ++ after ∧
      ∀ rest, parseTag (head ++ rest) = .ok (tag, rest) := by
  cases bytes with
  | nil => cases h
  | cons first tl =>
    simp only [parseTag] at h
    split at h
    next hlong =>
      cases tl with
      | nil => cases h
      | cons second tl =>
        obtain ⟨rfl, rfl⟩ : _ = tag ∧ tl = after := by simpa using h
        exact ⟨[first, second], by simp, rfl, fun rest => by simp [parseTag, hlong]⟩
    next hshort =>
      obtain ⟨rfl, rfl⟩ : _ = tag ∧ tl = after := by simpa using h
      exact ⟨[first], by simp, rfl, fun rest => by simp [parseTag, hshort]⟩

theorem parseLength_head {bytes after : Bytes} {len : Nat}
    (h : parseLength bytes = .ok (len, after)) :
    ∃ head, head ≠ [] ∧ bytes = head ++ after ∧
      ∀ rest, parseLength (head ++ rest) = .ok (len, rest) := by
  cases bytes with
  | nil => cases h
  | cons first tl =>
    simp only [parseLength] at h
    split at h
    next hshort =>
      obtain ⟨rfl, rfl⟩ : _ = len ∧ tl = after := by simpa using h
      exact ⟨[first], by simp, rfl, fun rest => by simp [parseLength, hshort]⟩
    next hlong =>
      split at h
      · cases h
      next n hn =>
        split at h
        next hle =>
          obtain ⟨rfl, rfl⟩ : _ = len ∧ tl.drop n = after := by simpa using h
          refine ⟨first :: tl.take n, by simp, by simp, fun rest => ?_⟩
          have hcount : (tl.take n).length = n := by
            rw [List.length_take]
            omega
          have hle' : n ≤ (tl.take n ++ rest).length := by
            rw [List.length_append]
            omega
          simp only [List.cons_append, parseLength, if_neg hlong, hn, if_pos hle',
            List.take_left' hcount, List.drop_left' hcount]
        · cases h

/-- **What is read is an element**, whatever stands behind it. -/
theorem isElement_of_parse {bytes : Bytes} {t : BerTlvAny} (h : BerTlvAny.parse bytes = .ok t) :
    ∃ part, IsElement part t ∧ bytes = part ++ bytes.drop t.size := by
  simp only [BerTlvAny.parse, bind, Except.bind] at h
  split at h
  · cases h
  next p htag =>
    obtain ⟨tag, afterTag⟩ := p
    dsimp only at h
    split at h
    · cases h
    next q hlen =>
      obtain ⟨len, body⟩ := q
      dsimp only at h
      split at h
      next hfits =>
        obtain ⟨tagOctets, htagNe, rfl, hreadTag⟩ := parseTag_head htag
        obtain ⟨lengthOctets, hlenNe, rfl, hreadLen⟩ := parseLength_head hlen
        injection h with h
        subst h
        have hvalue : (body.take len).length = len := by
          rw [List.length_take]
          omega
        refine ⟨tagOctets ++ (lengthOctets ++ body.take len), ⟨?_, ?_⟩, ?_⟩
        · simp only [BerTlvAny.parse, bind, Except.bind, hreadTag, hreadLen]
          rw [if_pos (by omega), List.take_take, Nat.min_self]
          simp only [List.length_append, hvalue]
          congr 2
          omega
        · simp only [List.length_append, hvalue]
          omega
        · have hsize : (tagOctets ++ (lengthOctets ++ body)).length - body.length + len =
              (tagOctets ++ lengthOctets).length + len := by
            simp only [List.length_append]
            omega
          rw [hsize, ← List.append_assoc, ← List.drop_drop, List.drop_left, ← List.append_assoc,
            List.append_assoc (_ ++ _), List.take_append_drop]
      · cases h

/-- **The elements the iterator gives fill its octets**, one behind the other. -/
theorem forall₂_isElement_of_children {value : Bytes} {elements : List BerTlvAny}
    (h : children value = elements.map .ok) :
    ∃ parts : List Bytes, value = parts.flatten ∧ List.Forall₂ IsElement parts elements := by
  induction elements generalizing value with
  | nil =>
    cases value with
    | nil => exact ⟨[], rfl, .nil⟩
    | cons b bs =>
      rw [children_cons] at h
      split at h <;> simp at h
  | cons t elements ih =>
    cases value with
    | nil => simp [children, Lib.unfold, Lib.unfoldFuel] at h
    | cons b bs =>
      rw [children_cons] at h
      split at h
      next u hu =>
        obtain ⟨hhead, htail⟩ := List.cons.inj h
        obtain rfl : u = t := Except.ok.inj hhead
        obtain ⟨part, hpart, hsplit⟩ := isElement_of_parse hu
        obtain ⟨parts, hparts, helements⟩ := ih htail
        refine ⟨part :: parts, ?_, .cons hpart helements⟩
        rw [List.flatten_cons, ← hparts]
        exact hsplit
      next e he => simp at h

/-! ## §2. The encoder -/

/-- The tag of a record as the encoder is handed it: one octet for `push_tlv`, a
    16-bit number for `push_tlv_tag2`. -/
inductive RecordTag where
  | one (tag : UInt8)
  | two (tag2 : UInt16)
  deriving Repr, DecidableEq

/-- `to_be_bytes` of the tag. -/
def RecordTag.octets : RecordTag → Bytes
  | .one tag => [tag]
  | .two tag2 => [UInt8.ofNat (tag2.toNat / 256), UInt8.ofNat tag2.toNat]

/-- The tag as the reader reports it. -/
def RecordTag.code : RecordTag → Nat
  | .one tag => tag.toNat
  | .two tag2 => tag2.toNat

/-- Low five bits of the first octet all set exactly when a second octet follows, and
    that octet (top bit clear) ends the tag. -/
def RecordTag.WellFormed : RecordTag → Prop
  | .one tag => tag.toNat % 32 ≠ 31
  | .two tag2 => tag2.toNat / 256 % 32 = 31 ∧ tag2.toNat % 256 < 0x80

instance (tag : RecordTag) : Decidable tag.WellFormed := by
  cases tag <;> unfold RecordTag.WellFormed <;> infer_instance

/-- `BerEncoder`. -/
structure BerEncoder where
  out : Bytes := []
  deriving Repr, DecidableEq

/-- `push_tlv` and `push_tlv_tag2`: tag, length, value.  `none` is the panic of
    `push_length`. -/
def BerEncoder.pushRecord (enc : BerEncoder) (tag : RecordTag) (value : Bytes) :
    Option BerEncoder :=
  (pushLength value.length).map fun len => ⟨enc.out ++ tag.octets ++ len ++ value⟩

/-- `BerEncoder::push_tlv`. -/
def BerEncoder.pushTlv (enc : BerEncoder) (tag : UInt8) (value : Bytes) : Option BerEncoder :=
  enc.pushRecord (.one tag) value

/-- `BerEncoder::push_tlv_tag2`. -/
def BerEncoder.pushTlvTag2 (enc : BerEncoder) (tag2 : UInt16) (value : Bytes) :
    Option BerEncoder :=
  enc.pushRecord (.two tag2) value

/-- A record the format can carry. -/
structure Record where
  tag : RecordTag
  value : Bytes
  wellFormed : tag.WellFormed
  fits : value.length < 2 ^ 32

/-- Push one record with the method its tag calls for. -/
def BerEncoder.push (enc : BerEncoder) (r : Record) : Option BerEncoder :=
  match r.tag with
  | .one tag => enc.pushTlv tag r.value
  | .two tag2 => enc.pushTlvTag2 tag2 r.value

/-- Push the records in order. -/
def BerEncoder.pushAll (enc : BerEncoder) (records : List Record) : Option BerEncoder :=
  records.foldlM BerEncoder.push enc

/-- `BerEncoder::finish` after every record was pushed. -/
def encode (records : List Record) : Option Bytes :=
  (BerEncoder.pushAll {} records).map BerEncoder.out

/-- The record is read back under its tag, with its value. -/
def Record.element (r : Record) (size : Nat) : BerTlvAny := ⟨r.tag.code, r.value, size⟩

theorem parseTag_octets {tag : RecordTag} (h : tag.WellFormed) (rest : Bytes) :
    parseTag (tag.octets ++ rest) = .ok (tag.code, rest) := by
  cases tag with
  | one tag => exact parseTag_single h
  | two tag2 =>
    have hlt : tag2.toNat < 65536 := tag2.toNat_lt
    have hhigh : (UInt8.ofNat (tag2.toNat / 256)).toNat = tag2.toNat / 256 := by
      rw [uint8_ofNat_toNat]
      omega
    have hlow : (UInt8.ofNat tag2.toNat).toNat = tag2.toNat % 256 := uint8_ofNat_toNat _
    simp only [RecordTag.octets, RecordTag.code, List.cons_append, List.nil_append, parseTag,
      hhigh, hlow, if_pos h.1]
    rw [Nat.div_add_mod']

/-- **The encoder appends one element**, and cannot panic on a record that fits. -/
theorem BerEncoder.push_appends (enc : BerEncoder) (r : Record) :
    ∃ part, enc.push r = some ⟨enc.out ++ part⟩ ∧ IsElement part (r.element part.length) := by
  obtain ⟨len, hlen⟩ := Option.isSome_iff_exists.mp (pushLength_isSome r.fits)
  refine ⟨r.tag.octets ++ len ++ r.value, ?_, ?_, rfl⟩
  · have hpush : enc.pushRecord r.tag r.value = some ⟨enc.out ++ (r.tag.octets ++ len ++ r.value)⟩ := by
      unfold pushRecord
      rw [hlen, Option.map_some]
      simp only [List.append_assoc]
    unfold push
    split
    next tag htag => rwa [htag] at hpush ⊢
    next tag2 htag => rwa [htag] at hpush ⊢
  · have hread : parseLength (len ++ r.value) = .ok (r.value.length, r.value) :=
      parseLength_pushLength hlen
    simp only [BerTlvAny.parse, List.append_assoc, parseTag_octets r.wellFormed, bind, Except.bind,
      hread]
    simp only [Record.element, List.length_append, le_refl, if_true, List.take_length]
    congr 2
    omega

theorem BerEncoder.pushAll_appends (enc : BerEncoder) (records : List Record) :
    ∃ parts elements, enc.pushAll records = some ⟨enc.out ++ parts.flatten⟩ ∧
      List.Forall₂ IsElement parts elements ∧
      List.Forall₂ (fun r t => t.tag = r.tag.code ∧ t.value = r.value) records elements := by
  induction records generalizing enc with
  | nil => exact ⟨[], [], by simp [pushAll], .nil, .nil⟩
  | cons r records ih =>
    obtain ⟨part, hpush, hpart⟩ := enc.push_appends r
    obtain ⟨parts, elements, hall, hparts, hsame⟩ := ih ⟨enc.out ++ part⟩
    refine ⟨part :: parts, r.element part.length :: elements, ?_, .cons hpart hparts,
      .cons ⟨rfl, rfl⟩ hsame⟩
    unfold pushAll at hall ⊢
    rw [List.foldlM_cons, hpush]
    simpa using hall

/-- The octets of a list of records are their elements, one after the other. -/
theorem encode_parts (records : List Record) :
    ∃ parts elements, encode records = some parts.flatten ∧
      List.Forall₂ IsElement parts elements ∧
      List.Forall₂ (fun r t => t.tag = r.tag.code ∧ t.value = r.value) records elements := by
  obtain ⟨parts, elements, hall, hparts, hsame⟩ := BerEncoder.pushAll_appends {} records
  refine ⟨parts, elements, ?_, hparts, hsame⟩
  unfold encode
  rw [hall]
  rfl

/-! ## §3. The iterator, call by call -/

/-- `BerTlvIter::next`: the item, and the `remaining` field after the call. -/
def BerTlvIter.next (remaining : Bytes) : Option (Except BerError BerTlvAny) × Bytes :=
  if remaining.isEmpty then (none, remaining)
  else match BerTlvAny.parse remaining with
    | .ok t => (some (.ok t), remaining.drop t.size)
    | .error e => (some (.error e), [])

/-- `Iterates remaining items rest`: called until it gives `None`, the iterator yields
    `items` and holds `rest` then. -/
inductive Iterates : Bytes → List (Except BerError BerTlvAny) → Bytes → Prop where
  | done {remaining rest : Bytes} :
      BerTlvIter.next remaining = (none, rest) → Iterates remaining [] rest
  | item {remaining after rest : Bytes} {item : Except BerError BerTlvAny}
      {items : List (Except BerError BerTlvAny)} :
      BerTlvIter.next remaining = (some item, after) → Iterates after items rest →
        Iterates remaining (item :: items) rest

theorem iterates_nil : Iterates [] [] [] := .done rfl

/-- **The iterator ends on every input**, after the items of `children`. -/
theorem iterates_children (input : Bytes) : Iterates input (children input) [] := by
  -- on the length of what is left: a record takes at least two octets
  induction hn : input.length using Nat.strong_induction_on generalizing input with
  | _ n ih =>
    cases input with
    | nil => exact iterates_nil
    | cons b bs =>
      rw [children_cons]
      split
      next t ht =>
        have hsize := parse_size_le ht
        refine .item (by simp [BerTlvIter.next, ht]) (ih _ ?_ ((b :: bs).drop t.size) rfl)
        rw [List.length_drop]
        omega
      next e he => exact .item (by simp [BerTlvIter.next, he]) iterates_nil

/-- The calls have one outcome. -/
theorem Iterates.unique {input rest rest' : Bytes} {items items' : List (Except BerError BerTlvAny)}
    (h : Iterates input items rest) (h' : Iterates input items' rest') :
    items = items' ∧ rest = rest' := by
  induction h generalizing items' with
  | done hnone =>
    cases h' with
    | done hnone' =>
      rw [hnone] at hnone'
      exact ⟨rfl, (Prod.mk.inj hnone').2⟩
    | item hsome _ =>
      rw [hnone] at hsome
      cases hsome
  | item hsome _ ih =>
    cases h' with
    | done hnone =>
      rw [hsome] at hnone
      cases hnone
    | item hsome' htail =>
      rw [hsome] at hsome'
      obtain ⟨hitem, rfl⟩ := Prod.mk.inj hsome'
      obtain ⟨hitems, hrest⟩ := ih htail
      exact ⟨by rw [Option.some.inj hitem, hitems], hrest⟩

/-! ## §4. Where the records lie -/

/-- The record stands at `offset` of the input: header and value are in bounds, and the
    value is the slice behind the header. -/
structure StandsAt (input : Bytes) (offset : Nat) (t : BerTlvAny) : Prop where
  inBounds : offset + t.size ≤ input.length
  header : 2 + t.value.length ≤ t.size
  slice : (input.drop (offset + (t.size - t.value.length))).take t.value.length = t.value

/-- The records stand one behind the other from `offset` on.  Only the last item can be
    an error; without one the records reach the end of the input. -/
inductive Covers (input : Bytes) : Nat → List (Except BerError BerTlvAny) → Prop where
  | done : Covers input input.length []
  | error {offset : Nat} (e : BerError) : offset < input.length → Covers input offset [.error e]
  | record {offset : Nat} {t : BerTlvAny} {items : List (Except BerError BerTlvAny)} :
      StandsAt input offset t → Covers input (offset + t.size) items →
        Covers input offset (.ok t :: items)

theorem standsAt_of_parse {input : Bytes} {offset : Nat} {t : BerTlvAny}
    (h : BerTlvAny.parse (input.drop offset) = .ok t) : StandsAt input offset t := by
  obtain ⟨head, rest, hhead, hinput, hsize⟩ := parse_spec h
  have hlen : input.length - offset = t.size + rest.length := by
    have := congrArg List.length hinput
    simp only [List.length_drop, List.length_append] at this
    omega
  refine ⟨by omega, by omega, ?_⟩
  rw [← List.drop_drop, hinput, hsize, Nat.add_sub_cancel, List.append_assoc, List.drop_left,
    List.take_left]

theorem covers_children (input : Bytes) (offset : Nat) (h : offset ≤ input.length) :
    Covers input offset (children (input.drop offset)) := by
  induction hn : input.length - offset using Nat.strong_induction_on generalizing offset with
  | _ n ih =>
    cases hrest : input.drop offset with
    | nil =>
      obtain rfl : offset = input.length := by
        have := congrArg List.length hrest
        simp only [List.length_drop, List.length_nil] at this
        omega
      exact .done
    | cons b bs =>
      have hlt : offset < input.length := by
        have := congrArg List.length hrest
        simp only [List.length_drop, List.length_cons] at this
        omega
      rw [children_cons]
      split
      next t ht =>
        rw [← hrest] at ht
        have hstands := standsAt_of_parse ht
        have hin := hstands.inBounds
        have hsize := (parse_size_le ht).1
        refine .record hstands ?_
        rw [← hrest, List.drop_drop]
        exact ih _ (by omega) (offset + t.size) hin rfl
      next e _ => exact .error e hlt

/-- **Every record is a contiguous part of the input.** -/
theorem Covers.standsAt {input : Bytes} {offset : Nat} {items : List (Except BerError BerTlvAny)}
    (h : Covers input offset items) {t : BerTlvAny} (ht : .ok t ∈ items) :
    ∃ at', offset ≤ at' ∧ StandsAt input at' t := by
  induction h with
  | done => cases ht
  | error e _ =>
    rw [List.mem_singleton] at ht
    cases ht
  | @record offset u items hstands _ ih =>
    rcases List.mem_cons.mp ht with hhead | htail
    · injection hhead with hhead
      exact ⟨offset, le_refl _, hhead ▸ hstands⟩
    · obtain ⟨at', hle, hat⟩ := ih htail
      exact ⟨at', by omega, hat⟩

/-! ## §5. Round trip -/

theorem flatten_length_eq_sizes {parts : List Bytes} {elements : List BerTlvAny}
    (h : List.Forall₂ IsElement parts elements) :
    (elements.map BerTlvAny.size).sum = parts.flatten.length := by
  induction h with
  | nil => rfl
  | cons hpart _ ih => simp [ih, hpart.whole]

theorem same_records {records : List Record} {elements : List BerTlvAny}
    (h : List.Forall₂ (fun r t => t.tag = r.tag.code ∧ t.value = r.value) records elements) :
    (elements.map fun t => (t.tag, t.value)) = records.map fun r => (r.tag.code, r.value) := by
  induction h with
  | nil => rfl
  | cons hsame _ ih => rw [List.map_cons, List.map_cons, ih, hsame.1, hsame.2]

/-- **The codec's contract.**  Whatever records are encoded, the iterator yields them back
    in order, and their sizes add up to the whole output.  On octets of any origin the
    iterator ends, in one way, and its records are slices of the input that stand one
    behind the other. -/
theorem encode_iterates :
    (∀ records : List Record, ∃ (out : Bytes) (elements : List BerTlvAny),
      encode records = some out ∧
      Iterates out (elements.map .ok) [] ∧
      (elements.map fun t => (t.tag, t.value)) = (records.map fun r => (r.tag.code, r.value)) ∧
      (elements.map BerTlvAny.size).sum = out.length) ∧
    (∀ input : Bytes, ∃ items, Iterates input items [] ∧
      (∀ items' rest, Iterates input items' rest → items' = items ∧ rest = []) ∧
      Covers input 0 items ∧
      ∀ t, .ok t ∈ items → ∃ offset, StandsAt input offset t) := by
  refine ⟨fun records => ?_, fun input => ?_⟩
  · obtain ⟨parts, elements, hencode, hparts, hsame⟩ := encode_parts records
    refine ⟨parts.flatten, elements, hencode, ?_, same_records hsame,
      flatten_length_eq_sizes hparts⟩
    rw [← children_flatten hparts]
    exact iterates_children _
  · have hcovers : Covers input 0 (children input) := covers_children input 0 (Nat.zero_le _)
    refine ⟨children input, iterates_children input, fun items' rest h => ?_, hcovers,
      fun t ht => ?_⟩
    · exact h.unique (iterates_children input)
    · obtain ⟨offset, -, hat⟩ := hcovers.standsAt ht
      exact ⟨offset, hat⟩

/-! ## §6. Length forms -/

/-- **The length octets of the module's documentation**: one up to 0x7F, or 0x81 to 0x84 and
    that many octets. -/
inductive LengthForm : Bytes → Nat → Prop where
  | short (first : UInt8) (h : first.toNat ≤ 0x7F) : LengthForm [first] first.toNat
  | long (first : UInt8) (octets : Bytes) (hfirst : first.toNat = 0x80 + octets.length)
      (hsome : 1 ≤ octets.length) (hfour : octets.length ≤ 4) :
      LengthForm (first :: octets) (beValue octets)

/-- First length octets that begin such a form. -/
def Supported (first : UInt8) : Prop :=
  first.toNat ≤ 0x7F ∨ (0x81 ≤ first.toNat ∧ first.toNat ≤ 0x84)

/-- **The reader keeps to these forms** on the given octets: an accepted record has one, and
    what begins with another octet is refused, whatever follows it. -/
structure LengthForms (bytes : Bytes) : Prop where
  accepted : ∀ t, BerTlvAny.parse bytes = .ok t → ∃ afterTag form rest,
    parseTag bytes = .ok (t.tag, afterTag) ∧ afterTag = form ++ t.value ++ rest ∧
      LengthForm form t.value.length
  refused : ∀ tag first rest, parseTag bytes = .ok (tag, first :: rest) → ¬ Supported first →
    BerTlvAny.parse bytes = .error .unsupportedLengthForm

theorem longFormBytes_eq_some_iff {first : UInt8} {n : Nat} :
    longFormBytes first = some n ↔ first.toNat = 0x80 + n ∧ 1 ≤ n ∧ n ≤ 4 := by
  have hbyte (k : UInt8) : first = k ↔ first.toNat = k.toNat := UInt8.toNat_inj.symm
  have h81 : (0x81 : UInt8).toNat = 0x81 := rfl
  have h82 : (0x82 : UInt8).toNat = 0x82 := rfl
  have h83 : (0x83 : UInt8).toNat = 0x83 := rfl
  have h84 : (0x84 : UInt8).toNat = 0x84 := rfl
  simp only [longFormBytes, hbyte, h81, h82, h83, h84]
  split_ifs <;> simp only [Option.some.injEq, false_iff] <;> omega

/-- What the reader makes of a length of which 0x80 is not the first octet. -/
theorem parseLength_form {first : UInt8} {rest body : Bytes} {len : Nat} (hne : first.toNat ≠ 0x80)
    (h : parseLength (first :: rest) = .ok (len, body)) :
    ∃ form, first :: rest = form ++ body ∧ LengthForm form len := by
  simp only [parseLength] at h
  split at h
  next hshort =>
    obtain ⟨rfl, rfl⟩ : first.toNat = len ∧ rest = body := by simpa using h
    have hlt : first.toNat < 0x81 := hshort
    exact ⟨[first], rfl, .short first (by omega)⟩
  next hlong =>
    cases hform : longFormBytes first with
    | none => simp [hform] at h
    | some n =>
      simp only [hform] at h
      split at h
      next hroom =>
        obtain ⟨rfl, rfl⟩ : beValue (rest.take n) = len ∧ rest.drop n = body := by simpa using h
        obtain ⟨hfirst, hone, hfour⟩ := longFormBytes_eq_some_iff.mp hform
        have hlen : (rest.take n).length = n := List.length_take_of_le hroom
        refine ⟨first :: rest.take n, ?_, .long first (rest.take n) ?_ ?_ ?_⟩
        · rw [List.cons_append, List.take_append_drop]
        · rw [hlen, hfirst]
        · rwa [hlen]
        · rwa [hlen]
      · simp at h

/-- A first octet above the known forms is refused. -/
theorem parseLength_unsupported {first : UInt8} (hne : first.toNat ≠ 0x80)
    (h : ¬ Supported first) (rest : Bytes) :
    parseLength (first :: rest) = .error .unsupportedLengthForm := by
  unfold Supported at h
  have hlong : ¬ first < 0x81 := by
    rw [UInt8.lt_iff_toNat_lt]
    show ¬ first.toNat < 0x81
    omega
  have hnone : longFormBytes first = none := by
    rw [Option.eq_none_iff_forall_ne_some]
    intro n hn
    have := longFormBytes_eq_some_iff.mp hn
    omega
  simp only [parseLength, if_neg hlong, hnone]

/-- The parts of an accepted record. -/
theorem parse_eq_ok {bytes : Bytes} {t : BerTlvAny} (h : BerTlvAny.parse bytes = .ok t) :
    ∃ afterTag body rest, parseTag bytes = .ok (t.tag, afterTag) ∧
      parseLength afterTag = .ok (t.value.length, body) ∧ body = t.value ++ rest := by
  simp only [BerTlvAny.parse, bind, Except.bind] at h
  cases hTag : parseTag bytes with
  | error e => simp [hTag] at h
  | ok p =>
    cases hLen : parseLength p.2 with
    | error e => simp [hTag, hLen] at h
    | ok q =>
      simp only [hTag, hLen] at h
      split at h
      next hfits =>
        obtain rfl := Except.ok.inj h
        refine ⟨p.2, q.2, q.2.drop q.1, rfl, ?_, (List.take_append_drop _ _).symm⟩
        rw [hLen, List.length_take_of_le hfits]
      · simp at h

/-- The octet 0x80 is read as a length of 128. -/
theorem parseLength_indefinite (rest : Bytes) : parseLength (0x80 :: rest) = .ok (128, rest) := by
  rfl

theorem not_lengthForms {bytes rest : Bytes} {tag : Nat}
    (h : parseTag bytes = .ok (tag, 0x80 :: rest)) : ¬ LengthForms bytes := by
  intro hforms
  have hmarker : ¬ Supported 0x80 := by
    unfold Supported
    decide
  have hrefused := hforms.refused tag 0x80 rest h hmarker
  simp only [BerTlvAny.parse, h, bind, Except.bind, parseLength_indefinite] at hrefused
  split at hrefused <;> simp at hrefused

/-- **The reader keeps to the documented forms exactly where the length does not begin with
    the indefinite-length marker.** -/
theorem lengthForms_iff (bytes : Bytes) :
    LengthForms bytes ↔ ∀ tag rest, parseTag bytes ≠ .ok (tag, 0x80 :: rest) := by
  constructor
  · intro hforms tag rest h
    exact not_lengthForms h hforms
  · intro hmarker
    have hne {tag : Nat} {first : UInt8} {rest : Bytes}
        (h : parseTag bytes = .ok (tag, first :: rest)) : first.toNat ≠ 0x80 := by
      intro heq
      refine hmarker tag rest ?_
      rw [h, UInt8.toNat_inj.mp (heq.trans rfl : first.toNat = (0x80 : UInt8).toNat)]
    constructor
    · intro t ht
      obtain ⟨afterTag, body, rest, htag, hlength, rfl⟩ := parse_eq_ok ht
      cases afterTag with
      | nil => simp [parseLength] at hlength
      | cons first tail =>
        obtain ⟨form, heq, hform⟩ := parseLength_form (hne htag) hlength
        exact ⟨_, form, rest, htag, by rw [heq, List.append_assoc], hform⟩
    · intro tag first rest htag hfirst
      have hlength := parseLength_unsupported (hne htag) hfirst rest
      simp only [BerTlvAny.parse, htag, bind, Except.bind, hlength]

/-- An octet string of indefinite length swallows the 128 octets behind its marker. -/
theorem indefinite_swallows :
    BerTlvAny.parse (0x04 :: 0x80 :: List.replicate 128 0) =
      .ok ⟨4, List.replicate 128 0, 130⟩ ∧
    ¬ LengthForms (0x04 :: 0x80 :: List.replicate 128 0) :=
  ⟨by decide +kernel, @not_lengthForms _ (List.replicate 128 0) 4 rfl⟩

end Ber

end RefineId
