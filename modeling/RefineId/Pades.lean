/-
  RefineId.Pades — incremental updates of a PDF.
  ════════════════════════════════════════════════════════════════════════════

  `crates/refineid-doc-sign/src/pades.rs` and the writer of `pades/xref_stream.rs`.  A signature,
  a document timestamp or a store of validation material goes behind the bytes of the document,
  with a cross-reference section that points back at the old one.

  The hole of a signature is reserved with zeros, `/ByteRange` with four fields of ten digits;
  both are overwritten in place once the offsets are known.

  The mark of a visible signature is drawn in floating point and tilted at random
  (`stamp.rs`, `spot.rs`); a `Drawing` stands for what those modules hand over.

  The results about these updates are in `RefineId.PadesByteRange`.
-/
import RefineId.Cades
import RefineId.PdfForm

namespace RefineId

namespace Pdf

open Lib

/-! ## §1. What is signed -/

/-- `StampLanguage`. -/
inductive StampLanguage where
  | finnish
  | swedish
  | english
  deriving Repr, DecidableEq

/-- `SignatureMetadata`; a visible signature is known by the language of its mark. -/
structure SignatureMetadata where
  reason : Option Text := none
  location : Option Text := none
  contact : Option Text := none
  name : Option Text := none
  signingTime : Option Text := none
  visibleSignature : Option StampLanguage := none
  deriving Repr, DecidableEq

/-- What the drawing code and the decompressor give: the side of the mark and the rectangle of
    its widget as they are printed, the operators that draw it, and zlib's inflate. -/
structure Drawing where
  inflate : Bytes → Option Bytes
  side : Bytes
  operators : StampLanguage → Bytes
  rectangle : PdfIndex → Nat → Bytes → Outcome Bytes

/-- `[start1, len1, start2, len2]`. -/
structure ByteRange where
  start1 : Nat
  len1 : Nat
  start2 : Nat
  len2 : Nat
  deriving Repr, DecidableEq

/-- The four numbers in the order they are written. -/
def ByteRange.toList (range : ByteRange) : List Nat :=
  [range.start1, range.len1, range.start2, range.len2]

/-- `Placeholder`. -/
structure Placeholder where
  document : Bytes
  byteRange : ByteRange
  contentsOpen : Nat
  capacity : Nat
  deriving Repr, DecidableEq

/-- `Placeholder::signed_octets`. -/
def Placeholder.signedOctets (p : Placeholder) : Bytes :=
  (p.document.drop p.byteRange.start1).take p.byteRange.len1 ++
    (p.document.drop p.byteRange.start2).take p.byteRange.len2

/-- `Placeholder::digest`. -/
def Placeholder.digest (E : Externals) (p : Placeholder)
    (algorithm : Cades.DigestAlgorithm) : Bytes :=
  algorithm.digest E p.signedOctets

/-- One digit of `hex_pair`. -/
def hexUpper (value : Nat) : UInt8 :=
  if value < 10 then UInt8.ofNat (48 + value) else UInt8.ofNat (65 + (value - 10))

/-- `hex_pair`. -/
def hexPair (b : UInt8) : UInt8 × UInt8 := (hexUpper (b.toNat / 16), hexUpper (b.toNat % 16))

/-- The loop of `Placeholder::finish`; an index past the end panics. -/
def spliceHex (document : Bytes) (cursor : Nat) : Bytes → Outcome Bytes
  | [] => .ok document
  | b :: rest =>
    if document.length ≤ cursor + 1 then .error .panic
    else spliceHex ((document.set cursor (hexPair b).1).set (cursor + 1) (hexPair b).2) (cursor + 2) rest

/-- `Placeholder::finish`. -/
def Placeholder.finish (p : Placeholder) (cmsDer : Bytes) : Outcome Bytes :=
  if p.capacity < cmsDer.length then
    fail (.signatureTooLarge (min cmsDer.length u32Max) (min p.capacity u32Max))
  else spliceHex p.document (p.contentsOpen + 1) cmsDer

/-! ## §2. Building an update -/

/-- `u32::saturating_add`. -/
def saturatingAdd (a b : Nat) : Nat := min (a + b) u32Max

/-- An update that will stand at `start`: its bytes so far, and where its objects begin. -/
structure Update where
  start : Nat
  bytes : Bytes
  offsets : List (Nat × Nat)
  deriving Repr, DecidableEq

/-- `offsets.push(..)` and the bytes of the object. -/
def Update.push (update : Update) (number : Nat) (object : Bytes) : Update :=
  { update with
    bytes := update.bytes ++ object
    offsets := update.offsets ++ [(number, update.start + update.bytes.length)] }

/-- `N 0 obj`, the body, `endobj`. -/
def Update.pushBody (update : Update) (number : Nat) (body : Bytes) : Update :=
  update.push number (decimal number ++ ascii " 0 obj\n" ++ body ++ ascii "\nendobj\n")

/-- The first object number an update takes. -/
def nextObject (trailer : Bytes) : Nat := max ((dictionaryInteger trailer (ascii "/Size")).getD 0) 1

/-- The document, with a line end behind it. -/
def closedLine (pdf : Bytes) : Bytes :=
  if pdf.getLast? = some 10 then pdf else pdf ++ [10]

/-- One byte of a literal string. -/
def escapeByte (b : UInt8) : Bytes :=
  if b = byte '\\' || b = byte '(' || b = byte ')' then [byte '\\', b] else [b]

/-- `push_optional_text`. -/
def optionalText (key : Bytes) (value : Option Text) : Bytes :=
  match value with
  | none => []
  | some value => key ++ ascii " (" ++ (utf8Encode value).flatMap escapeByte ++ ascii ")\n"

/-- `push_dictionary_head`. -/
def dictionaryHead (number : Nat) (kind : Reserved) (metadata : SignatureMetadata) : Bytes :=
  decimal number ++ ascii " 0 obj\n<< /Type " ++ kind.dictionaryHead.1 ++
    ascii " /Filter /Adobe.PPKLite /SubFilter " ++ kind.dictionaryHead.2 ++ ascii "\n" ++
    optionalText (ascii "/Reason") metadata.reason ++
    optionalText (ascii "/Location") metadata.location ++
    optionalText (ascii "/ContactInfo") metadata.contact ++
    optionalText (ascii "/Name") metadata.name ++
    match metadata.signingTime with
    | none => []
    | some time => ascii "/M (" ++ utf8Encode time ++ ascii ")\n"

/-! ## §3. The cross-reference section -/

/-- `{offset:010}`. -/
def decimalPadded (width n : Nat) : Bytes :=
  List.replicate (width - (decimal n).length) (byte '0') ++ decimal n

/-- `cross_reference_section`. -/
def crossReferenceSection (offsets : List (Nat × Nat)) : Bytes :=
  ascii "xref\n" ++ offsets.flatMap fun (number, offset) =>
    decimal number ++ ascii " 1\n" ++ decimalPadded 10 offset ++ ascii " 00000 n \n"

/-- `trailer_carry_forward`. -/
def trailerCarryForward (trailer : Bytes) : Bytes :=
  let identifier : Option Bytes := do
    let rest ← afterKey trailer (ascii "/ID")
    let (_, body) ← splitOnce (ascii "[") rest
    let (inside, _) ← splitOnce (ascii "]") body
    return ascii "[" ++ inside ++ ascii "]"
  (match identifier with
    | some array => ascii " /ID " ++ utf8Encode (fromUtf8Lossy array)
    | none => []) ++
    match indirectValue trailer (ascii "/Info") with
    | some number => ascii " /Info " ++ referenceText number
    | none => []

/-- `sort_unstable_by_key` on the number.  The source leaves the order of equal numbers open;
    here it is that of the list. -/
def sortOffsets (offsets : List (Nat × Nat)) : List (Nat × Nat) :=
  offsets.insertionSort fun a b => a.1 ≤ b.1

/-- `u32::to_be_bytes`. -/
def be32 (n : Nat) : Bytes :=
  [UInt8.ofNat (n / 2 ^ 24), UInt8.ofNat (n / 2 ^ 16), UInt8.ofNat (n / 2 ^ 8), UInt8.ofNat n]

/-- One row of a written cross-reference stream: a type byte, the offset, the generation. -/
def streamRow (offset : Nat) : Except PdfError Bytes := do
  let narrowed ← okOr .missingStartXref (narrow u32Max offset)
  return 1 :: be32 narrowed ++ [0, 0]

/-- `xref_stream::push_stream_close`. -/
def streamClose (xrefAt : Nat) (offsets : List (Nat × Nat)) (size catalogNumber previousXref : Nat)
    (carried : Bytes) : Except PdfError Bytes := do
  let entries := sortOffsets (offsets ++ [(size, xrefAt)])
  let rows ← entries.mapM fun entry => streamRow entry.2
  let index := entries.flatMap fun entry => decimal entry.1 ++ ascii " 1 "
  return decimal size ++ ascii " 0 obj\n<< /Type /XRef /Size " ++ decimal (saturatingAdd size 1) ++
    ascii " /Root " ++ referenceText catalogNumber ++ ascii " /Prev " ++ decimal previousXref ++
    carried ++ ascii " /Index [ " ++ index ++ ascii "] /W [1 4 2] /Length " ++
    decimal rows.flatten.length ++ ascii " >>\nstream\n" ++ rows.flatten ++
    ascii "\nendstream\nendobj\nstartxref\n" ++ decimal xrefAt ++ ascii "\n%%EOF\n"

/-- The table and trailer of `push_xref_and_trailer`. -/
def tableClose (xrefAt : Nat) (offsets : List (Nat × Nat)) (size catalogNumber previousXref : Nat)
    (carried : Bytes) : Bytes :=
  crossReferenceSection offsets ++ ascii "trailer\n<< /Size " ++ decimal size ++ ascii " /Root " ++
    referenceText catalogNumber ++ ascii " /Prev " ++ decimal previousXref ++ carried ++
    ascii ">>\nstartxref\n" ++ decimal xrefAt ++ ascii "\n%%EOF\n"

/-- `push_xref_and_trailer`: the update with its closing section. -/
def pushXrefAndTrailer (update : Update) (size catalogNumber : Nat) (index : PdfIndex) :
    Except PdfError Bytes := do
  let xrefAt := update.start + update.bytes.length
  let offsets := sortOffsets update.offsets
  let carried := trailerCarryForward index.trailer
  if index.newestIsStream then
    let closing ← streamClose xrefAt offsets size catalogNumber index.startXref carried
    return update.bytes ++ closing
  else
    return update.bytes ++ tableClose xrefAt offsets size catalogNumber index.startXref carried

/-! ## §4. The placeholder -/

/-- `{value:>10}`. -/
def rightAligned (value : Nat) : Bytes :=
  List.replicate (10 - (decimal value).length) 32 ++ decimal value

/-- `document[start..start + 10].copy_from_slice(text)`; a text of another length panics. -/
def copyField (document : Bytes) (start : Nat) (text : Bytes) : Outcome Bytes :=
  if text.length ≠ 10 ∨ document.length < start + 10 then .error .panic
  else .ok (document.take start ++ text ++ document.drop (start + 10))

/-- `write_byte_range`: the field with index `i` begins one byte after `at + 11 * i`. -/
def writeByteRange (document : Bytes) (start : Nat) : List Nat → Outcome Bytes
  | [] => .ok document
  | value :: values => do
    let document ← copyField document (start + 1) (rightAligned value)
    writeByteRange document (start + 11) values

/-- `finish_placeholder`. -/
def finishPlaceholder (out : Bytes) (byteRangeAt contentsOpen capacity : Nat) :
    Outcome Placeholder := do
  let start2 := contentsOpen + 1 + capacity * 2 + 1
  let byteRange : ByteRange := ⟨0, contentsOpen, start2, out.length - start2⟩
  let document ← writeByteRange out byteRangeAt byteRange.toList
  return ⟨document, byteRange, contentsOpen, capacity⟩

/-- The four fields as they are reserved. -/
def reservedFields : Bytes := (List.replicate 4 (32 :: List.replicate 10 (byte '0'))).flatten

/-- `rendered_signature_appearance`: the mark, on a signature only. -/
def renderedAppearance (kind : Reserved) (metadata : SignatureMetadata) : Option StampLanguage :=
  if kind = .signature then metadata.visibleSignature else none

/-- The field of an invisible signature. -/
def invisibleField (fieldNumber signatureNumber pageNumber : Nat) (fieldName : Text) : Bytes :=
  decimal fieldNumber ++ ascii " 0 obj\n<< /Type /Annot /Subtype /Widget /FT /Sig /T (" ++
    utf8Encode fieldName ++ ascii ") /V " ++ referenceText signatureNumber ++ ascii " /P " ++
    referenceText pageNumber ++ ascii " /Rect [0 0 0 0] /F 132 >>\nendobj\n"

/-- The field, the mark and its font of a visible signature. -/
def visibleObjects (D : Drawing) (rectangle : Bytes) (fieldNumber signatureNumber pageNumber : Nat)
    (fieldName : Text) (language : StampLanguage) : List (Nat × Bytes) :=
  let appearanceNumber := saturatingAdd fieldNumber 1
  let fontNumber := saturatingAdd fieldNumber 2
  [(fieldNumber,
      decimal fieldNumber ++ ascii " 0 obj\n<< /Type /Annot /Subtype /Widget /FT /Sig /T (" ++
        utf8Encode fieldName ++ ascii ") /V " ++ referenceText signatureNumber ++ ascii " /P " ++
        referenceText pageNumber ++ ascii " /Rect [" ++ rectangle ++ ascii "] /F 132 /AP << /N " ++
        referenceText appearanceNumber ++ ascii " >> >>\nendobj\n"),
    (appearanceNumber,
      decimal appearanceNumber ++ ascii " 0 obj\n<< /Type /XObject /Subtype /Form /BBox [0 0 " ++
        D.side ++ ascii " " ++ D.side ++ ascii "] /Resources << /Font << /F1 " ++
        referenceText fontNumber ++ ascii " >> >> /Length " ++
        decimal (D.operators language).length ++ ascii " >>\nstream\n" ++ D.operators language ++
        ascii "endstream\nendobj\n"),
    (fontNumber,
      decimal fontNumber ++ ascii (" 0 obj\n<< /Type /Font /Subtype /Type1 /BaseFont " ++
        "/Helvetica-Bold /Encoding /WinAnsiEncoding >>\nendobj\n"))]

/-- `signature_field_objects`. -/
def signatureFieldObjects (D : Drawing) (index : PdfIndex) (pageNumber : Nat) (page : Bytes)
    (fieldNumber signatureNumber : Nat) (fieldName : Text) (appearance : Option StampLanguage) :
    Outcome (List (Nat × Bytes)) :=
  match appearance with
  | none =>
    .ok [(fieldNumber, invisibleField fieldNumber signatureNumber pageNumber fieldName)]
  | some language => do
    let rectangle ← D.rectangle index pageNumber page
    return visibleObjects D rectangle fieldNumber signatureNumber pageNumber fieldName language

/-- The page, or the array object of its annotations, with the widget in it. -/
def pushAnnotation (D : Drawing) (index : PdfIndex) (pageNumber : Nat) (page : Bytes)
    (fieldNumber : Nat) (update : Update) : Outcome Update :=
  match planAnnotation page fieldNumber with
  | .page body => .ok (update.pushBody pageNumber body)
  | .array arrayNumber => do
    let found ← index.objectBody D.inflate arrayNumber
    let array ← lift (okOr (.missingObject arrayNumber) found)
    return update.pushBody arrayNumber (appendToArray array 0 (referenceText fieldNumber))

/-- The object that holds the list of fields, reissued with the new field. -/
def pushFieldList (D : Drawing) (index : PdfIndex) (catalogNumber : Nat) (catalog : Bytes)
    (fieldNumber : Nat) (update : Update) : Outcome Update := do
  match ← planFieldList D.inflate index catalog fieldNumber with
  | .catalog body => return update.pushBody catalogNumber body
  | .object number body => return update.pushBody number body

/-- The signature dictionary up to the number fields. -/
def signatureHead (number : Nat) (kind : Reserved) (metadata : SignatureMetadata) : Bytes :=
  dictionaryHead number kind metadata ++ ascii "/ByteRange ["

/-- The signature dictionary from the number fields on. -/
def signatureTail (capacity : Nat) : Bytes :=
  reservedFields ++ ascii " ]\n/Contents " ++ ascii "<" ++
    List.replicate (capacity * 2) (byte '0') ++ ascii ">" ++ ascii "\n>>\nendobj\n"

/-- The document with the update behind it, and where the number fields and the hole are. -/
structure Draft where
  out : Bytes
  byteRangeAt : Nat
  contentsOpen : Nat
  deriving Repr, DecidableEq

/-- `prepare_kind` after the last refusal of the document itself: the update is put together. -/
def draftUpdate (D : Drawing) (index : PdfIndex) (pdf : Bytes) (metadata : SignatureMetadata)
    (capacity : Nat) (kind : Reserved) (catalogNumber : Nat) : Outcome Draft := do
  let signatureNumber := nextObject index.trailer
  let fieldNumber := saturatingAdd signatureNumber 1
  let appearance := renderedAppearance kind metadata
  let newSize := saturatingAdd fieldNumber (if appearance.isSome then 3 else 1)
  let body ← index.objectBody D.inflate catalogNumber
  let catalog ← lift (okOr (.missingObject catalogNumber) body)
  let fieldName ← uniqueFieldName D.inflate index catalog kind signatureNumber
  let (pageNumber, page) ← signaturePage D.inflate index catalog appearance.isSome
  let out := closedLine pdf
  let head := signatureHead signatureNumber kind metadata
  let byteRangeAt := out.length + head.length
  let contentsOpen := byteRangeAt + (reservedFields ++ ascii " ]\n/Contents ").length
  -- `b"0".repeat(capacity * 2)`
  if isizeMax < capacity * 2 then .error .panic
  else
    let update := (⟨out.length, [], []⟩ : Update).push signatureNumber
      (head ++ signatureTail capacity)
    let objects ← signatureFieldObjects D index pageNumber page fieldNumber signatureNumber
      fieldName appearance
    let update := objects.foldl (fun update object => update.push object.1 object.2) update
    let update ← pushAnnotation D index pageNumber page fieldNumber update
    let update ← pushFieldList D index catalogNumber catalog fieldNumber update
    let bytes ← lift (pushXrefAndTrailer update newSize catalogNumber index)
    return ⟨out ++ bytes, byteRangeAt, contentsOpen⟩

/-- `prepare_kind` up to the patching of `/ByteRange`. -/
def draftKind (D : Drawing) (pdf : Bytes) (metadata : SignatureMetadata) (capacity : Nat)
    (kind : Reserved) : Outcome Draft := do
  lift (ensure ((ascii "%PDF-").isPrefixOf pdf) .notAPdf)
  let index ← PdfIndex.parse D.inflate pdf
  lift (ensure (findFirst index.trailer (ascii "/Encrypt")).isNone .unsupportedEncryption)
  let catalogNumber ← lift
    (okOr .missingCatalogReference (dictionaryReference index.trailer (ascii "/Root")))
  draftUpdate D index pdf metadata capacity kind catalogNumber

/-- `prepare_kind`. -/
def prepareKind (D : Drawing) (pdf : Bytes) (metadata : SignatureMetadata) (capacity : Nat)
    (kind : Reserved) : Outcome Placeholder := do
  let draft ← draftKind D pdf metadata capacity kind
  finishPlaceholder draft.out draft.byteRangeAt draft.contentsOpen capacity

/-- `prepare`. -/
def prepare (D : Drawing) (pdf : Bytes) (metadata : SignatureMetadata) (capacity : Nat) :
    Outcome Placeholder :=
  prepareKind D pdf metadata capacity .signature

/-- `prepare_document_timestamp`. -/
def prepareDocumentTimestamp (D : Drawing) (pdf : Bytes) (capacity : Nat) : Outcome Placeholder :=
  prepareKind D pdf {} capacity .documentTimestamp

end Pdf

end RefineId
