/-
  RefineId.PadesByteRange — what a PDF signature covers.
  ════════════════════════════════════════════════════════════════════════════

  `/ByteRange` names two spans of the very file it is written into.  The numbers go over fields
  reserved at their full width, and the signature over zeros reserved for it, so that nothing
  behind them moves.

  The proof follows the bytes: an update only ever grows at its end (`draftKind_layout`), the
  four fields are overwritten where they stand (`writeByteRange_fields`), and the signature is
  written inside its hole (`spliceHex_hole`).

  Main results:
    • `draftKind_layout`        : where the number fields and the hole stand in a draft.
    • `finishPlaceholder_layout` : patching panics exactly when a number has over ten digits.
    • `prepared_byteRange_exact` : the file outside the hole is what is signed.
-/
import RefineId.Pades

namespace RefineId

namespace Pdf

open Lib

/-! ## §1. Updates only grow -/

@[simp] theorem Update.push_bytes (update : Update) (number : Nat) (object : Bytes) :
    (update.push number object).bytes = update.bytes ++ object := rfl

theorem Update.push_grows (update : Update) (number : Nat) (object : Bytes) :
    update.bytes <+: (update.push number object).bytes := ⟨object, rfl⟩

theorem Update.pushBody_grows (update : Update) (number : Nat) (body : Bytes) :
    update.bytes <+: (update.pushBody number body).bytes := update.push_grows number _

theorem Update.foldl_push_grows (objects : List (Nat × Bytes)) (update : Update) :
    update.bytes <+:
      (objects.foldl (fun update object => update.push object.1 object.2) update).bytes := by
  induction objects generalizing update with
  | nil => exact List.prefix_refl _
  | cons object objects ih =>
    exact (update.push_grows object.1 object.2).trans (ih (update.push object.1 object.2))

theorem pushAnnotation_grows {D : Drawing} {index : PdfIndex} {pageNumber : Nat} {page : Bytes}
    {fieldNumber : Nat} {update update' : Update}
    (h : pushAnnotation D index pageNumber page fieldNumber update = .ok update') :
    update.bytes <+: update'.bytes := by
  unfold pushAnnotation at h
  split at h
  · injection h with h
    exact h ▸ update.pushBody_grows _ _
  · simp only [bind_eq_ok, pure_eq_ok] at h
    obtain ⟨_, _, _, _, rfl⟩ := h
    exact update.pushBody_grows _ _

theorem pushFieldList_grows {D : Drawing} {index : PdfIndex} {catalogNumber : Nat}
    {catalog : Bytes} {fieldNumber : Nat} {update update' : Update}
    (h : pushFieldList D index catalogNumber catalog fieldNumber update = .ok update') :
    update.bytes <+: update'.bytes := by
  simp only [pushFieldList, bind_eq_ok] at h
  obtain ⟨target, _, h⟩ := h
  cases target with
  | catalog body =>
    injection h with h
    exact h ▸ update.pushBody_grows _ _
  | object number body =>
    injection h with h
    exact h ▸ update.pushBody_grows _ _

theorem pushXrefAndTrailer_grows {update : Update} {size catalogNumber : Nat} {index : PdfIndex}
    {bytes : Bytes} (h : pushXrefAndTrailer update size catalogNumber index = .ok bytes) :
    update.bytes <+: bytes := by
  unfold pushXrefAndTrailer at h
  split at h
  · simp only [bind_eq_ok, pure_eq_ok] at h
    obtain ⟨closing, _, rfl⟩ := h
    exact List.prefix_append _ _
  · injection h with h
    exact h ▸ List.prefix_append _ _

theorem closedLine_begins (pdf : Bytes) : pdf <+: closedLine pdf := by
  unfold closedLine
  split
  · exact List.prefix_refl _
  · exact List.prefix_append _ _

/-! ## §2. The layout of a draft -/

/-- Between the number fields and the hole. -/
def contentsKey : Bytes := ascii " ]\n/Contents "

/-- A draft as it stands before the numbers are known. -/
structure Layout (pdf : Bytes) (capacity : Nat) (draft : Draft) (before rest : Bytes) : Prop where
  original : pdf <+: before
  out : draft.out = before ++ ascii "/ByteRange [" ++ reservedFields ++ contentsKey ++
    (ascii "<" ++ List.replicate (capacity * 2) (byte '0') ++ ascii ">") ++ rest
  byteRangeAt : draft.byteRangeAt = (before ++ ascii "/ByteRange [").length
  contentsOpen : draft.contentsOpen =
    (before ++ ascii "/ByteRange [" ++ reservedFields ++ contentsKey).length

theorem draftUpdate_layout {D : Drawing} {index : PdfIndex} {pdf : Bytes}
    {metadata : SignatureMetadata} {capacity : Nat} {kind : Reserved} {catalogNumber : Nat}
    {draft : Draft}
    (h : draftUpdate D index pdf metadata capacity kind catalogNumber = .ok draft) :
    ∃ number more, Layout pdf capacity draft
      (closedLine pdf ++ dictionaryHead number kind metadata) (ascii "\n>>\nendobj\n" ++ more) := by
  simp only [draftUpdate, bind_eq_ok] at h
  obtain ⟨_, _, catalog, _, fieldName, _, ⟨pageNumber, page⟩, _, h⟩ := h
  split at h
  · exact absurd h (by simp)
  simp only [bind_eq_ok, pure_eq_ok] at h
  obtain ⟨objects, _, afterPage, hpage, afterFields, hfields, bytes, hclose, rfl⟩ := h
  -- the signature dictionary is the first thing in the update, and stays there
  have hgrown := (((Update.foldl_push_grows objects _).trans (pushAnnotation_grows hpage)).trans
    (pushFieldList_grows hfields)).trans (pushXrefAndTrailer_grows (lift_eq_ok.mp hclose))
  obtain ⟨more, hmore⟩ := hgrown
  simp only [Update.push_bytes, List.nil_append] at hmore
  refine ⟨nextObject index.trailer, more,
    (closedLine_begins pdf).trans (List.prefix_append _ _), ?_, ?_, ?_⟩
  · rw [← hmore]
    simp only [signatureHead, signatureTail, contentsKey, List.append_assoc]
  · simp only [signatureHead, List.length_append, Nat.add_assoc]
  · simp only [signatureHead, contentsKey, List.length_append, Nat.add_assoc]

/-- **The layout of every draft.** -/
theorem draftKind_layout {D : Drawing} {pdf : Bytes} {metadata : SignatureMetadata}
    {capacity : Nat} {kind : Reserved} {draft : Draft}
    (h : draftKind D pdf metadata capacity kind = .ok draft) :
    ∃ number more, Layout pdf capacity draft
      (closedLine pdf ++ dictionaryHead number kind metadata) (ascii "\n>>\nendobj\n" ++ more) := by
  simp only [draftKind, bind_eq_ok] at h
  obtain ⟨_, _, index, _, _, _, catalogNumber, _, h⟩ := h
  exact draftUpdate_layout h

/-! ## §3. Patching the numbers -/

/-- One reserved field. -/
def reservedField : Bytes := 32 :: List.replicate 10 (byte '0')

/-- One written field. -/
def writtenField (value : Nat) : Bytes := 32 :: rightAligned value

theorem rightAligned_length (value : Nat) :
    (rightAligned value).length = max 10 (decimal value).length := by
  simp only [rightAligned, List.length_append, List.length_replicate]
  omega

theorem rightAligned_length_eq_iff {value : Nat} :
    (rightAligned value).length = 10 ↔ value < 10 ^ 10 := by
  rw [rightAligned_length, ← decimal_length_le_iff (by decide)]
  omega

theorem copyField_reserved (pre post : Bytes) {text : Bytes} (h : text.length = 10) :
    copyField (pre ++ reservedField ++ post) (pre.length + 1) text =
      .ok (pre ++ (32 :: text) ++ post) := by
  have hfield : reservedField.length = 11 := by decide
  have hbound : ¬ (text.length ≠ 10 ∨ (pre ++ reservedField ++ post).length < pre.length + 1 + 10) := by
    simp only [List.length_append, hfield]
    omega
  have htake : (pre ++ reservedField ++ post).take (pre.length + 1) = pre ++ [32] := by
    rw [List.append_assoc, List.take_length_add_append]
    rfl
  have hdrop : (pre ++ reservedField ++ post).drop (pre.length + 1 + 10) = post := by
    rw [Nat.add_assoc, List.append_assoc, List.drop_length_add_append]
    rfl
  rw [copyField, if_neg hbound, htake, hdrop]
  simp

/-- A field too wide for its place stops the patching. -/
theorem copyField_panics (document : Bytes) (start : Nat) {text : Bytes} (h : text.length ≠ 10) :
    copyField document start text = .error .panic := by
  rw [copyField, if_pos (Or.inl h)]

/-- **The fields are overwritten where they stand.** -/
theorem writeByteRange_fields (values : List Nat) (pre post : Bytes) :
    writeByteRange (pre ++ values.flatMap (fun _ => reservedField) ++ post) pre.length values =
      if ∀ value ∈ values, value < 10 ^ 10 then .ok (pre ++ values.flatMap writtenField ++ post)
      else .error .panic := by
  induction values generalizing pre with
  | nil => simp [writeByteRange]
  | cons value values ih =>
    have hsplit : pre ++ (value :: values).flatMap (fun _ => reservedField) ++ post =
        pre ++ reservedField ++ (values.flatMap (fun _ => reservedField) ++ post) := by
      simp only [List.flatMap_cons, List.append_assoc]
    rw [writeByteRange, hsplit]
    by_cases hvalue : value < 10 ^ 10
    · have hlen := rightAligned_length_eq_iff.mpr hvalue
      rw [copyField_reserved _ _ hlen]
      have hstart : pre.length + 11 = (pre ++ writtenField value).length := by
        simp only [writtenField, List.length_append, List.length_cons, hlen]
      show writeByteRange (pre ++ writtenField value ++ _) (pre.length + 11) values = _
      rw [hstart, ← List.append_assoc, ih]
      simp only [List.forall_mem_cons, hvalue, true_and, List.flatMap_cons, List.append_assoc]
    · have hlen : (rightAligned value).length ≠ 10 := mt rightAligned_length_eq_iff.mp hvalue
      rw [copyField_panics _ _ hlen, if_neg]
      · rfl
      · intro hall
        exact hvalue (hall value List.mem_cons_self)

theorem reservedFields_eq (range : ByteRange) :
    reservedFields = range.toList.flatMap fun _ => reservedField := rfl

/-- The document once its numbers are written. -/
def patched (before : Bytes) (range : ByteRange) (capacity : Nat) (rest : Bytes) : Bytes :=
  before ++ ascii "/ByteRange [" ++ range.toList.flatMap writtenField ++ contentsKey ++
    (ascii "<" ++ List.replicate (capacity * 2) (byte '0') ++ ascii ">") ++ rest

/-- The two spans around the hole. -/
def rangeAround (draft : Draft) (capacity : Nat) : ByteRange :=
  ⟨0, draft.contentsOpen, draft.contentsOpen + 1 + capacity * 2 + 1,
    draft.out.length - (draft.contentsOpen + 1 + capacity * 2 + 1)⟩

theorem finishPlaceholder_layout {pdf : Bytes} {capacity : Nat} {draft : Draft}
    {before rest : Bytes} (hl : Layout pdf capacity draft before rest) :
    finishPlaceholder draft.out draft.byteRangeAt draft.contentsOpen capacity =
      if ∀ value ∈ (rangeAround draft capacity).toList, value < 10 ^ 10 then
        .ok ⟨patched before (rangeAround draft capacity) capacity rest,
          rangeAround draft capacity, draft.contentsOpen, capacity⟩
      else .error .panic := by
  have hwrite := writeByteRange_fields (rangeAround draft capacity).toList
    (before ++ ascii "/ByteRange [") (contentsKey ++
      (ascii "<" ++ List.replicate (capacity * 2) (byte '0') ++ ascii ">") ++ rest)
  rw [← reservedFields_eq] at hwrite
  have hout : draft.out = before ++ ascii "/ByteRange [" ++ reservedFields ++ (contentsKey ++
      (ascii "<" ++ List.replicate (capacity * 2) (byte '0') ++ ascii ">") ++ rest) := by
    rw [hl.out]
    simp only [List.append_assoc]
  rw [← hout, ← hl.byteRangeAt] at hwrite
  show (writeByteRange draft.out draft.byteRangeAt (rangeAround draft capacity).toList >>= fun
    document => (pure ⟨document, rangeAround draft capacity, draft.contentsOpen, capacity⟩ :
      Outcome Placeholder)) = _
  rw [hwrite]
  split
  · simp only [patched, List.append_assoc]
    rfl
  · rfl

/-! ## §4. Reading the numbers -/

/-- The numbers in a text, word by word. -/
def numbersIn (text : Bytes) : Option (List Nat) := (words text).mapM parseUsize

theorem decimal_plain {n : Nat} : ∀ b ∈ decimal n, isAsciiWhitespace b = false := by
  intro b hb
  have hdigit := decimal_digits hb
  simp only [isAsciiDigit, Bool.and_eq_true, decide_eq_true_eq] at hdigit
  obtain ⟨hlow, hhigh⟩ := hdigit
  have hne : ∀ w : UInt8, w < 48 → b ≠ w := by
    intro w hw hbw
    rw [hbw] at hlow
    exact absurd hw (UInt8.not_lt.mpr hlow)
  simp [isAsciiWhitespace, hne 32 (by decide), hne 9 (by decide), hne 10 (by decide),
    hne 12 (by decide), hne 13 (by decide)]

theorem words_writtenField (value : Nat) (rest : Bytes) :
    words (writtenField value ++ rest) = words (decimal value ++ rest) := by
  show words (32 :: (rightAligned value ++ rest)) = _
  rw [words_cons_blank (by decide), rightAligned, List.append_assoc, words_blanks]

theorem words_writtenFields (values : List Nat) :
    words (values.flatMap writtenField) = values.map decimal := by
  induction values with
  | nil => rfl
  | cons value values ih =>
    rw [List.flatMap_cons, words_writtenField, List.map_cons]
    cases values with
    | nil => rw [List.flatMap_nil, List.append_nil, words_token (decimal_ne_nil _) decimal_plain]; rfl
    | cons next values =>
      -- the blank in front of the next field ends this number
      have hblank : (next :: values).flatMap writtenField =
          32 :: (rightAligned next ++ values.flatMap writtenField) := by
        rw [List.flatMap_cons, writtenField, List.cons_append]
      rw [hblank] at ih ⊢
      rw [words_token_blank (decimal_ne_nil _) decimal_plain (by decide)]
      rw [words_cons_blank (by decide)] at ih
      rw [ih]

/-- **The written numbers are read back.** -/
theorem numbersIn_writtenFields {values : List Nat} (h : ∀ value ∈ values, value < 10 ^ 10) :
    numbersIn (values.flatMap writtenField) = some values := by
  rw [numbersIn, words_writtenFields, List.mapM_map]
  induction values with
  | nil => rfl
  | cons value values ih =>
    have hfits : value ≤ usizeMax := by
      have hvalue := h value List.mem_cons_self
      unfold usizeMax
      omega
    rw [List.mapM_cons]
    simp only [Function.comp_apply, parseUsize_decimal hfits]
    rw [ih fun v hv => h v (List.mem_cons_of_mem _ hv)]
    rfl

/-! ## §5. The signature in its hole -/

/-- The digits of `bytes`. -/
def hexDigits (bytes : Bytes) : Bytes := bytes.flatMap fun b => [(hexPair b).1, (hexPair b).2]

/-- Pairs of hexadecimal digits, as the octets they stand for. -/
def hexOctets : Bytes → Option Bytes
  | [] => some []
  | [_] => none
  | high :: low :: rest => do
    let h ← hexDigit high
    let l ← hexDigit low
    let octets ← hexOctets rest
    return UInt8.ofNat (h * 16 + l) :: octets

theorem hexDigits_length (bytes : Bytes) : (hexDigits bytes).length = 2 * bytes.length := by
  induction bytes with
  | nil => rfl
  | cons b bytes ih =>
    show (hexDigits bytes).length + 2 = _
    rw [ih, List.length_cons]
    omega

theorem hexDigit_hexUpper {value : Nat} (h : value < 16) :
    hexDigit (hexUpper value) = some value := by
  have hall : ∀ v : Fin 16, hexDigit (hexUpper v) = some v.val := by decide
  exact hall ⟨value, h⟩

theorem hexOctets_pair (b : UInt8) {rest octets : Bytes} (h : hexOctets rest = some octets) :
    hexOctets ((hexPair b).1 :: (hexPair b).2 :: rest) = some (b :: octets) := by
  have hb : b.toNat < 256 := b.toNat_lt
  have hvalue : b.toNat / 16 * 16 + b.toNat % 16 = b.toNat := by omega
  have hoctet : UInt8.ofNat (b.toNat / 16 * 16 + b.toNat % 16) = b := by
    rw [hvalue, UInt8.ofNat_toNat]
  have hhigh : hexDigit (hexPair b).1 = some (b.toNat / 16) := hexDigit_hexUpper (by omega)
  have hlow : hexDigit (hexPair b).2 = some (b.toNat % 16) := hexDigit_hexUpper (by omega)
  simp only [hexOctets, hhigh, hlow, h]
  exact congrArg (fun octet => some (octet :: octets)) hoctet

theorem hexOctets_zeros (n : Nat) :
    hexOctets (List.replicate (n * 2) (byte '0')) = some (List.replicate n 0) := by
  induction n with
  | zero => rfl
  | succ n ih =>
    have hpairs : List.replicate ((n + 1) * 2) (byte '0') =
        (hexPair 0).1 :: (hexPair 0).2 :: List.replicate (n * 2) (byte '0') := by
      rw [show (n + 1) * 2 = n * 2 + 1 + 1 by omega, List.replicate_succ, List.replicate_succ]
      rfl
    rw [hpairs, hexOctets_pair 0 ih, List.replicate_succ]

theorem hexOctets_hexDigits (bytes : Bytes) (n : Nat) :
    hexOctets (hexDigits bytes ++ List.replicate (n * 2) (byte '0')) =
      some (bytes ++ List.replicate n 0) := by
  induction bytes with
  | nil => exact hexOctets_zeros n
  | cons b bytes ih => exact hexOctets_pair b ih

theorem set_two (pre post : Bytes) (a b c d : UInt8) :
    ((pre ++ a :: b :: post).set pre.length c).set (pre.length + 1) d = pre ++ c :: d :: post := by
  rw [List.set_append_right _ _ (le_refl _), Nat.sub_self, List.set_cons_zero,
    List.set_append_right _ _ (Nat.le_add_right _ 1), Nat.add_sub_cancel_left, List.set_cons_succ,
    List.set_cons_zero]

/-- **The signature is written inside its hole.** -/
theorem spliceHex_hole (cms hole pre post : Bytes) (h : 2 * cms.length ≤ hole.length) :
    spliceHex (pre ++ hole ++ post) pre.length cms =
      .ok (pre ++ (hexDigits cms ++ hole.drop (2 * cms.length)) ++ post) := by
  induction cms generalizing hole pre with
  | nil => simp [spliceHex, hexDigits]
  | cons b cms ih =>
    rw [List.length_cons] at h
    match hole, h with
    | first :: second :: hole, h =>
      rw [List.length_cons, List.length_cons] at h
      have hroom : ¬ (pre ++ first :: second :: hole ++ post).length ≤ pre.length + 1 := by
        simp only [List.length_append, List.length_cons]
        omega
      have hset := set_two pre (hole ++ post) first second (hexPair b).1 (hexPair b).2
      have hmoved : pre ++ (hexPair b).1 :: (hexPair b).2 :: (hole ++ post) =
          (pre ++ [(hexPair b).1, (hexPair b).2]) ++ hole ++ post := by simp
      have hcursor : pre.length + 2 = (pre ++ [(hexPair b).1, (hexPair b).2]).length := by simp
      have hassoc : pre ++ first :: second :: hole ++ post =
          pre ++ first :: second :: (hole ++ post) := by simp
      rw [spliceHex, if_neg hroom, hassoc, hset, hmoved, hcursor, ih _ _ (by omega)]
      have hdrop : (first :: second :: hole).drop (2 * (b :: cms).length) =
          hole.drop (2 * cms.length) := by
        rw [List.length_cons, show 2 * (cms.length + 1) = 2 * cms.length + 1 + 1 by omega,
          List.drop_succ_cons, List.drop_succ_cons]
      rw [hdrop]
      simp [hexDigits]

/-! ## §6. A document with a hole -/

/-- A document whose hole begins after `front` and holds `hex`. -/
def holed (front hex rest : Bytes) : Bytes := front ++ (ascii "<" ++ hex ++ ascii ">") ++ rest

/-- The octets of `document` outside `start..stop`. -/
def outside (document : Bytes) (start stop : Nat) : Bytes :=
  document.take start ++ document.drop stop

theorem getElem?_of_drop {document rest : Bytes} {start : Nat} {b : UInt8}
    (h : document.drop start = b :: rest) : document[start]? = some b := by
  have hhead : (document.drop start)[0]? = some b := by rw [h]; rfl
  rwa [List.getElem?_drop, Nat.add_zero] at hhead

section
variable (front hex rest : Bytes)

theorem holed_length : (holed front hex rest).length = front.length + hex.length + 2 + rest.length := by
  simp only [holed, ascii, List.length_append, List.length_map]
  show front.length + (1 + hex.length + 1) + rest.length = _
  omega

theorem holed_take : (holed front hex rest).take front.length = front := by
  rw [holed, List.append_assoc, List.take_left]

theorem holed_take_open : (holed front hex rest).take (front.length + 1) = front ++ ascii "<" := by
  rw [holed, List.append_assoc, List.take_length_add_append]
  rfl

theorem holed_drop_open :
    (holed front hex rest).drop (front.length + 1) = hex ++ (ascii ">" ++ rest) := by
  rw [holed, List.append_assoc, List.drop_length_add_append]
  show ([] ++ hex ++ ascii ">") ++ rest = _
  simp only [List.nil_append, List.append_assoc]

theorem holed_hex : ((holed front hex rest).drop (front.length + 1)).take hex.length = hex := by
  rw [holed_drop_open, List.take_left]

theorem holed_drop_hex :
    (holed front hex rest).drop (front.length + 1 + hex.length) = ascii ">" ++ rest := by
  rw [← List.drop_drop, holed_drop_open, List.drop_left]

theorem holed_drop : (holed front hex rest).drop (front.length + 1 + hex.length + 1) = rest := by
  rw [← List.drop_drop, holed_drop_hex]
  rfl

theorem holed_opens : (holed front hex rest)[front.length]? = some (byte '<') := by
  have hdrop : (holed front hex rest).drop front.length = byte '<' :: (hex ++ ascii ">" ++ rest) := by
    rw [holed, List.append_assoc, List.drop_left]
    rfl
  exact getElem?_of_drop hdrop

theorem holed_closes : (holed front hex rest)[front.length + 1 + hex.length]? = some (byte '>') :=
  getElem?_of_drop (holed_drop_hex front hex rest)

end

/-! ## §7. The placeholder -/

/-- **What a signature covers.**  `capacity` is the room of the hole, which opens at
    `contentsOpen` and whose last byte is one before `start2`. -/
structure ByteRangeExact (pdf : Bytes) (capacity : Nat) (p : Placeholder) : Prop where
  /-- The document begins with the input. -/
  original : pdf <+: p.document
  /-- The hole is `<`, two digits for each byte of the capacity, `>`. -/
  opens : p.document[p.byteRange.len1]? = some (byte '<')
  closes : p.document[p.byteRange.len1 + 1 + capacity * 2]? = some (byte '>')
  start1 : p.byteRange.start1 = 0
  start2 : p.byteRange.start2 = p.byteRange.len1 + 1 + capacity * 2 + 1
  toEnd : p.byteRange.start2 + p.byteRange.len2 = p.document.length
  /-- The numbers stand in the text before the hole, behind the input. -/
  written : ∃ before text, pdf <+: before ∧
    p.document.take p.byteRange.len1 = before ++ ascii "/ByteRange [" ++ text ++ contentsKey ∧
    numbersIn text = some p.byteRange.toList
  signed : p.signedOctets = outside p.document p.byteRange.len1 p.byteRange.start2
  /-- A signature that fits changes the digits in the hole and nothing else. -/
  finished : ∀ cms, cms.length ≤ capacity → ∃ document, p.finish cms = .ok document ∧
    document.length = p.document.length ∧
    outside document (p.byteRange.len1 + 1) (p.byteRange.len1 + 1 + capacity * 2) =
      outside p.document (p.byteRange.len1 + 1) (p.byteRange.len1 + 1 + capacity * 2) ∧
    hexOctets ((document.drop (p.byteRange.len1 + 1)).take (capacity * 2)) =
      some (cms ++ List.replicate (capacity - cms.length) 0) ∧
    ∀ E algorithm, p.digest E algorithm =
      algorithm.digest E (outside document p.byteRange.len1 p.byteRange.start2)
  refused : ∀ cms, capacity < cms.length → ∃ needed reserved,
    p.finish cms = fail (.signatureTooLarge needed reserved)

/-- A placeholder over a document with an empty hole. -/
def holedPlaceholder (front rest : Bytes) (capacity : Nat) : Placeholder :=
  let document := holed front (List.replicate (capacity * 2) (byte '0')) rest
  let start2 := front.length + 1 + capacity * 2 + 1
  ⟨document, ⟨0, front.length, start2, document.length - start2⟩, front.length, capacity⟩

section
variable (front rest : Bytes) (capacity : Nat)

theorem holedPlaceholder_signed :
    (holedPlaceholder front rest capacity).signedOctets = front ++ rest := by
  have hzeros : (List.replicate (capacity * 2) (byte '0')).length = capacity * 2 :=
    List.length_replicate
  have htake := holed_take front (List.replicate (capacity * 2) (byte '0')) rest
  have hdrop := holed_drop front (List.replicate (capacity * 2) (byte '0')) rest
  have hlen := holed_length front (List.replicate (capacity * 2) (byte '0')) rest
  rw [hzeros] at hdrop hlen
  simp only [Placeholder.signedOctets, holedPlaceholder, List.drop_zero, htake, hdrop, hlen]
  rw [List.take_of_length_le (by omega)]

theorem holedPlaceholder_finish {cms : Bytes} (h : cms.length ≤ capacity) :
    (holedPlaceholder front rest capacity).finish cms =
      .ok (holed front (hexDigits cms ++
        List.replicate ((capacity - cms.length) * 2) (byte '0')) rest) := by
  have hsplice := spliceHex_hole cms (List.replicate (capacity * 2) (byte '0'))
    (front ++ ascii "<") (ascii ">" ++ rest) (by rw [List.length_replicate]; omega)
  have hdocument : front ++ ascii "<" ++ List.replicate (capacity * 2) (byte '0') ++
      (ascii ">" ++ rest) = holed front (List.replicate (capacity * 2) (byte '0')) rest := by
    simp only [holed, List.append_assoc]
  have hcursor : (front ++ ascii "<").length = front.length + 1 := by
    rw [List.length_append]
    rfl
  have hpad : capacity * 2 - 2 * cms.length = (capacity - cms.length) * 2 := by omega
  rw [hdocument, hcursor, List.drop_replicate, hpad] at hsplice
  have hfits : ¬ (holedPlaceholder front rest capacity).capacity < cms.length := by
    show ¬ capacity < cms.length
    omega
  rw [Placeholder.finish, if_neg hfits]
  show spliceHex (holed front _ rest) (front.length + 1) cms = _
  rw [hsplice]
  simp only [holed, List.append_assoc]

theorem holedPlaceholder_exact {pdf before text : Bytes} (hpdf : pdf <+: before)
    (hfront : front = before ++ ascii "/ByteRange [" ++ text ++ contentsKey)
    (htext : numbersIn text = some (holedPlaceholder front rest capacity).byteRange.toList) :
    ByteRangeExact pdf capacity (holedPlaceholder front rest capacity) := by
  have hzeros : (List.replicate (capacity * 2) (byte '0')).length = capacity * 2 :=
    List.length_replicate
  have hcloses := holed_closes front (List.replicate (capacity * 2) (byte '0')) rest
  have hdrop := holed_drop front (List.replicate (capacity * 2) (byte '0')) rest
  have hlen := holed_length front (List.replicate (capacity * 2) (byte '0')) rest
  rw [hzeros] at hcloses hdrop hlen
  have hprefix : pdf <+: front := by
    rw [hfront, List.append_assoc, List.append_assoc]
    exact hpdf.trans (List.prefix_append _ _)
  refine
    { original := hprefix.trans (by rw [holedPlaceholder, holed, List.append_assoc]; exact List.prefix_append _ _)
      opens := holed_opens front _ rest
      closes := hcloses
      start1 := rfl
      start2 := rfl
      toEnd := ?_
      written := ⟨before, text, hpdf, ?_, htext⟩
      signed := ?_
      finished := ?_
      refused := ?_ }
  · show front.length + 1 + capacity * 2 + 1 + ((holed front _ rest).length - _) = (holed front _ rest).length
    omega
  · rw [← hfront]
    exact holed_take front _ rest
  · rw [holedPlaceholder_signed]
    show _ = (holed front _ rest).take front.length ++
      (holed front _ rest).drop (front.length + 1 + capacity * 2 + 1)
    rw [holed_take, hdrop]
  · intro cms hcms
    -- the digits fill the hole exactly, so everything outside keeps its place
    have hhex : (hexDigits cms ++ List.replicate ((capacity - cms.length) * 2) (byte '0')).length =
        capacity * 2 := by
      rw [List.length_append, hexDigits_length, List.length_replicate]
      omega
    have hlen' := holed_length front
      (hexDigits cms ++ List.replicate ((capacity - cms.length) * 2) (byte '0')) rest
    have hout : ∀ hex : Bytes, hex.length = capacity * 2 →
        outside (holed front hex rest) (front.length + 1) (front.length + 1 + capacity * 2) =
          front ++ ascii "<" ++ (ascii ">" ++ rest) := by
      intro hex hlength
      rw [outside, holed_take_open, ← hlength, holed_drop_hex]
    refine ⟨_, holedPlaceholder_finish front rest capacity hcms, ?_, ?_, ?_, ?_⟩
    · show _ = (holed front _ rest).length
      omega
    · exact (hout _ hhex).trans (hout _ hzeros).symm
    · show hexOctets (((holed front _ rest).drop (front.length + 1)).take (capacity * 2)) = _
      rw [← hhex, holed_hex, hexOctets_hexDigits]
    · intro E algorithm
      have hdrop' := holed_drop front
        (hexDigits cms ++ List.replicate ((capacity - cms.length) * 2) (byte '0')) rest
      rw [hhex] at hdrop'
      rw [Placeholder.digest, holedPlaceholder_signed]
      show _ = algorithm.digest E ((holed front _ rest).take front.length ++
        (holed front _ rest).drop (front.length + 1 + capacity * 2 + 1))
      rw [holed_take, hdrop']
  · intro cms hcms
    refine ⟨_, _, if_pos hcms⟩

end

/-! ## §8. Every prepared document -/

theorem writtenField_length {value : Nat} (h : value < 10 ^ 10) :
    (writtenField value).length = reservedField.length := by
  rw [writtenField, List.length_cons, rightAligned_length_eq_iff.mpr h]
  rfl

theorem writtenFields_length {values : List Nat} (h : ∀ value ∈ values, value < 10 ^ 10) :
    (values.flatMap writtenField).length = (values.flatMap fun _ => reservedField).length := by
  induction values with
  | nil => rfl
  | cons value values ih =>
    rw [List.flatMap_cons, List.flatMap_cons, List.length_append, List.length_append,
      writtenField_length (h value List.mem_cons_self), ih fun v hv => h v (List.mem_cons_of_mem _ hv)]

section
variable {pdf : Bytes} {capacity : Nat} {draft : Draft} {before rest : Bytes}

/-- The document in front of the hole, with the numbers written. -/
def frontOf (before : Bytes) (draft : Draft) (capacity : Nat) : Bytes :=
  before ++ ascii "/ByteRange [" ++ (rangeAround draft capacity).toList.flatMap writtenField ++
    contentsKey

theorem Layout.front_length (hl : Layout pdf capacity draft before rest)
    (hfits : ∀ value ∈ (rangeAround draft capacity).toList, value < 10 ^ 10) :
    (frontOf before draft capacity).length = draft.contentsOpen := by
  rw [hl.contentsOpen, frontOf, reservedFields_eq (rangeAround draft capacity)]
  simp only [List.length_append, writtenFields_length hfits]

theorem Layout.out_length (hl : Layout pdf capacity draft before rest) :
    draft.out.length = draft.contentsOpen + 1 + capacity * 2 + 1 + rest.length := by
  rw [hl.out, List.length_append, List.length_append, ← hl.contentsOpen]
  simp only [List.length_append, List.length_replicate]
  show draft.contentsOpen + (1 + capacity * 2 + 1) + rest.length = _
  omega

/-- What the patching leaves is a document with an empty hole. -/
theorem Layout.patched_eq (hl : Layout pdf capacity draft before rest)
    (hfits : ∀ value ∈ (rangeAround draft capacity).toList, value < 10 ^ 10) :
    (⟨patched before (rangeAround draft capacity) capacity rest, rangeAround draft capacity,
      draft.contentsOpen, capacity⟩ : Placeholder) =
      holedPlaceholder (frontOf before draft capacity) rest capacity := by
  have hfront := hl.front_length hfits
  have hlength : (holed (frontOf before draft capacity)
      (List.replicate (capacity * 2) (byte '0')) rest).length = draft.out.length := by
    rw [holed_length, hfront, hl.out_length, List.length_replicate]
    omega
  simp only [holedPlaceholder, hlength, hfront]
  rfl

theorem Layout.exact (hl : Layout pdf capacity draft before rest) {p : Placeholder}
    (h : finishPlaceholder draft.out draft.byteRangeAt draft.contentsOpen capacity = .ok p) :
    ByteRangeExact pdf capacity p := by
  rw [finishPlaceholder_layout hl] at h
  split at h
  next hfits =>
    have heq := hl.patched_eq hfits
    injection h with h
    rw [← h, heq]
    refine holedPlaceholder_exact _ _ _ hl.original rfl ?_
    rw [← heq]
    exact numbersIn_writtenFields hfits
  · exact absurd h (by simp)

/-- Patching returns whenever the document is short enough for its numbers. -/
theorem Layout.finish_returns (hl : Layout pdf capacity draft before rest)
    (hshort : draft.out.length < 10 ^ 10) :
    ∃ p, finishPlaceholder draft.out draft.byteRangeAt draft.contentsOpen capacity = .ok p ∧
      p.document.length = draft.out.length := by
  have hout := hl.out_length
  have hfits : ∀ value ∈ (rangeAround draft capacity).toList, value < 10 ^ 10 := by
    intro value hvalue
    simp only [rangeAround, ByteRange.toList, List.mem_cons, List.not_mem_nil, or_false] at hvalue
    omega
  rw [finishPlaceholder_layout hl, if_pos hfits, hl.patched_eq hfits]
  refine ⟨_, rfl, ?_⟩
  show (holed _ _ rest).length = _
  rw [holed_length, hl.front_length hfits, List.length_replicate, hout]
  omega

end

theorem prepareKind_exact {D : Drawing} {pdf : Bytes} {metadata : SignatureMetadata}
    {capacity : Nat} {kind : Reserved} {p : Placeholder}
    (h : prepareKind D pdf metadata capacity kind = .ok p) : ByteRangeExact pdf capacity p := by
  simp only [prepareKind, bind_eq_ok] at h
  obtain ⟨draft, hdraft, h⟩ := h
  obtain ⟨_, _, hl⟩ := draftKind_layout hdraft
  exact hl.exact h

/-- **The digest signed is that of the finished file outside the hole.**  Every placeholder of a
    signature or a timestamp has an exact byte range, and every update shorter than 10^10 bytes
    becomes one. -/
theorem prepared_byteRange_exact (D : Drawing) (pdf : Bytes) (metadata : SignatureMetadata)
    (capacity : Nat) :
    (∀ p, prepare D pdf metadata capacity = .ok p → ByteRangeExact pdf capacity p) ∧
    (∀ p, prepareDocumentTimestamp D pdf capacity = .ok p → ByteRangeExact pdf capacity p) ∧
    ∀ kind draft, draftKind D pdf metadata capacity kind = .ok draft →
      draft.out.length < 10 ^ 10 →
      ∃ p, prepareKind D pdf metadata capacity kind = .ok p ∧
        p.document.length = draft.out.length := by
  refine ⟨fun p h => prepareKind_exact h, fun p h => prepareKind_exact h, ?_⟩
  intro kind draft hdraft hshort
  obtain ⟨_, _, hl⟩ := draftKind_layout hdraft
  obtain ⟨p, hp, hlength⟩ := hl.finish_returns hshort
  exact ⟨p, bind_eq_ok.mpr ⟨draft, hdraft, hp⟩, hlength⟩

/-- A document of a catalog and one page. -/
def sampleDocument : Bytes :=
  ascii ("%PDF-1.7\n1 0 obj\n<</Pages 2 0 R>>\nendobj\n2 0 obj\n<<>>\nendobj\n" ++
    "xref\n1 2\n9 0 n\n41 0 n\ntrailer\n<</Size 3/Root 1 0 R>>\nstartxref\n61\n%%EOF\n")

/-- Nothing drawn and nothing compressed. -/
def sampleDrawing : Drawing :=
  ⟨fun _ => none, [], fun _ => [], fun _ _ _ => .ok (ascii "0 0 0 0")⟩

theorem sampleDocument_prepared : ∃ p, prepare sampleDrawing sampleDocument {} 2 = .ok p ∧
    ByteRangeExact sampleDocument 2 p := by
  have hreturns : (prepare sampleDrawing sampleDocument {} 2).toOption.isSome = true := by
    rw [sampleDocument, ascii_append, ascii_ofList, ascii_ofList]
    decide +kernel
  obtain ⟨p, hp⟩ := Option.isSome_iff_exists.mp hreturns
  have hok : prepare sampleDrawing sampleDocument {} 2 = .ok p := toOption_eq_some.mp hp
  exact ⟨p, hok, (prepared_byteRange_exact sampleDrawing sampleDocument {} 2).1 p hok⟩

end Pdf

end RefineId
