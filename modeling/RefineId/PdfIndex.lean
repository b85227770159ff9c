/-
  RefineId.PdfIndex — the cross-reference chain of a PDF.
  ════════════════════════════════════════════════════════════════════════════

  `pades.rs` and `pades/xref_stream.rs`: the sections a document's `/Prev` chain runs through,
  as tables or as streams, and the object bodies found through them.

  Decompression is a parameter: `inflate` is `miniz_oxide`'s zlib reader with its limit.
-/
import RefineId.Pdf

namespace RefineId

namespace Pdf

open Lib

/-! ## §1. Entries -/

/-- `XrefLocation`. -/
inductive XrefLocation where
  | free
  | direct (offset : Nat)
  | compressed (container position : Nat)
  deriving Repr, DecidableEq

/-- `XrefEntry`. -/
structure XrefEntry where
  number : Nat
  generation : Nat
  location : XrefLocation
  deriving Repr, DecidableEq

/-- `XrefSection`. -/
structure XrefSection where
  trailer : Bytes
  entries : List XrefEntry
  isStream : Bool
  deriving Repr, DecidableEq

/-- `PdfIndex`. -/
structure PdfIndex where
  pdf : Bytes
  trailer : Bytes
  startXref : Nat
  newestIsStream : Bool
  objects : List XrefEntry
  deriving Repr, DecidableEq

/-! ## §2. Stream payloads -/

/-- `bytes.get(start..stop)`. -/
def slice (bytes : Bytes) (start stop : Nat) : Option Bytes :=
  if start ≤ stop ∧ stop ≤ bytes.length then some ((bytes.take stop).drop start) else none

/-- `trim`. -/
def trimPdf (bytes : Bytes) : Bytes :=
  ((bytes.dropWhile isAsciiWhitespace).reverse.dropWhile isAsciiWhitespace).reverse

/-- `integer_array`. -/
def integerArray (dictionary key : Bytes) : List Nat :=
  match afterKey dictionary key with
  | none => []
  | some rest =>
    match consume (ascii "[") (rest.dropWhile isAsciiWhitespace) with
    | none => []
    | some body =>
      match splitOnce (ascii "]") body with
      | none => []
      | some (inner, _) => ((words inner).mapM parseUsize).getD []

/-- `direct_length`. -/
def directLength (dictionary : Bytes) : Option Nat := do
  let parsed ← (PdfDictionary.parse dictionary).toOption
  let entry ← (← (parsed.entry (ascii "Length")).toOption)
  parseUsize (trimPdf (entry.value.of dictionary))

/-- Without the byte `b` at the end. -/
def dropLast? (b : UInt8) (bytes : Bytes) : Bytes :=
  if bytes.getLast? = some b then bytes.dropLast else bytes

/-- Without the byte `b` in front. -/
def dropHead? (b : UInt8) (bytes : Bytes) : Bytes :=
  if bytes.head? = some b then bytes.tail else bytes

/-- `raw_payload`, over what follows the dictionary. -/
def rawPayload (afterDictionary dictionary : Bytes) : Except PdfError Bytes :=
  match splitOnce (ascii "stream") afterDictionary with
  | none => .error .missingTrailer
  | some (_, afterKeyword) =>
    let tail := dropHead? 10 (dropHead? 13 afterKeyword)
    match (directLength dictionary).bind (slice tail 0) with
    | some payload => .ok payload
    | none =>
      match splitOnce (ascii "endstream") tail with
      | none => .error .missingTrailer
      | some (payload, _) => .ok (dropLast? 13 (dropLast? 10 payload))

/-- The error of a dictionary that cannot be read here. -/
def asMissingTrailer {α : Type} (x : Except PdfError α) : Except PdfError α :=
  x.mapError fun _ => .missingTrailer

/-- `flate_only`. -/
def flateOnly (dictionary : Bytes) : Except PdfError Bool := do
  let parsed ← asMissingTrailer (PdfDictionary.parse dictionary)
  match ← asMissingTrailer (parsed.entry (ascii "Filter")) with
  | none => return false
  | some entry =>
    let whole := trimPdf (entry.value.of dictionary)
    let name :=
      if whole.head? = some (byte '[') && whole.tail.getLast? = some (byte ']')
      then trimPdf whole.tail.dropLast else whole
    if name = ascii "/FlateDecode" then return true
    else .error .unsupportedCrossReferenceStream

/-- `decode_parameters`. -/
def decodeParameters (dictionary : Bytes) : Except PdfError (Option Bytes) := do
  let parsed ← asMissingTrailer (PdfDictionary.parse dictionary)
  let found ← match ← asMissingTrailer (parsed.entry (ascii "DecodeParms")) with
    | some entry => .ok (some entry)
    | none => asMissingTrailer (parsed.entry (ascii "DP"))
  match found with
  | none => return none
  | some entry =>
    let value := trimPdf (entry.value.of dictionary)
    if (ascii "<<").isPrefixOf value then return some value
    else .error .unsupportedCrossReferenceStream

/-! ## §3. The PNG predictor -/

/-- `average`. -/
def average (left upper : UInt8) : UInt8 := UInt8.ofNat ((left.toNat + upper.toNat) / 2)

/-- `paeth`. -/
def paeth (left upper upperLeft : UInt8) : UInt8 :=
  let estimate : Int := left.toNat + upper.toNat - upperLeft.toNat
  let distanceLeft := (estimate - left.toNat).natAbs
  let distanceUpper := (estimate - upper.toNat).natAbs
  let distanceUpperLeft := (estimate - upperLeft.toNat).natAbs
  if distanceLeft ≤ distanceUpper ∧ distanceLeft ≤ distanceUpperLeft then left
  else if distanceUpper ≤ distanceUpperLeft then upper
  else upperLeft

/-- The prediction of one byte under the row's filter. -/
def prediction (filter left upper upperLeft : UInt8) : Option UInt8 :=
  if filter = 0 then some 0
  else if filter = 1 then some left
  else if filter = 2 then some upper
  else if filter = 3 then some (average left upper)
  else if filter = 4 then some (paeth left upper upperLeft)
  else none

/-- One row; `left` and `upperLeft` are the neighbours of the next byte. -/
def unfilterRow (filter : UInt8) : UInt8 → UInt8 → Bytes → Bytes → Option Bytes
  | _, _, _, [] => some []
  | left, upperLeft, above, raw :: row => do
    let upper := above.headD 0
    let predicted ← prediction filter left upper upperLeft
    let decoded := raw + predicted
    let others ← unfilterRow filter decoded upper above.tail row
    return decoded :: others

/-- The rows of `columns` bytes each behind their filter byte. -/
def unfilterRows (columns : Nat) : Nat → Bytes → Bytes → Option Bytes
  | 0, _, _ => some []
  | _ + 1, _, [] => some []
  | rows + 1, above, filter :: data => do
    let decoded ← unfilterRow filter 0 0 above (data.take columns)
    let others ← unfilterRows columns rows decoded (data.drop columns)
    return decoded ++ others

/-- `isize::MAX`: a vector longer than that panics. -/
def isizeMax : Nat := 2 ^ 63 - 1

/-- `png_unfiltered`. -/
def pngUnfiltered (data : Bytes) (columns : Nat) : Outcome Bytes :=
  let stride := min (columns + 1) usizeMax
  if columns = 0 ∨ data.length % stride ≠ 0 then fail .missingTrailer
  -- `vec![0_u8; columns]`
  else if isizeMax < columns then .error .panic
  else
    match unfilterRows columns (data.length / stride) (List.replicate columns 0) data with
    | some out => .ok out
    | none => fail .missingTrailer

/-- `unpredicted`. -/
def unpredicted (data dictionary : Bytes) : Outcome Bytes := do
  match ← lift (decodeParameters dictionary) with
  | none => return data
  | some parameters =>
    let predictor := (dictionaryUsize parameters (ascii "/Predictor")).getD 1
    if predictor = 1 then return data
    else if predictor < 10 ∨ (dictionaryUsize parameters (ascii "/Colors")).getD 1 ≠ 1 ∨
        (dictionaryUsize parameters (ascii "/BitsPerComponent")).getD 8 ≠ 8 then
      fail .unsupportedCrossReferenceStream
    else pngUnfiltered data ((dictionaryUsize parameters (ascii "/Columns")).getD 1)

/-! ## §4. Cross-reference streams -/

/-- `StreamObject`. -/
structure StreamObject where
  dictionary : Bytes
  payload : Bytes
  deriving Repr, DecidableEq

/-- A token that has to be there, and to be a number. -/
def numberToken (parse : Bytes → Option Nat) (pdf : Bytes) (cursor : Nat) :
    Except PdfError (Nat × Nat) := do
  let (token, cursor) ← okOr .missingTrailer (readPdfToken pdf cursor)
  let value ← okOr .missingTrailer (parse token)
  return (value, cursor)

section
variable (inflate : Bytes → Option Bytes)

/-- `decoded`. -/
def decoded (raw dictionary : Bytes) : Outcome Bytes := do
  if ← lift (flateOnly dictionary) then
    let inflated ← lift (okOr .missingTrailer (inflate raw))
    unpredicted inflated dictionary
  else unpredicted raw dictionary

/-- `parse_stream_object`. -/
def parseStreamObject (pdf : Bytes) (offset : Nat) : Outcome StreamObject := do
  let (_, cursor) ← lift (numberToken parseU32 pdf (skipPdfWhitespace pdf offset))
  let (_, cursor) ← lift (numberToken parseU16 pdf cursor)
  let (keyword, cursor) ← lift (okOr .missingTrailer (readPdfToken pdf cursor))
  lift (ensure (keyword = ascii "obj") .missingTrailer)
  let (dictionary, after) ← lift (okOr .missingTrailer (dictionaryAt pdf cursor))
  let raw ← lift (rawPayload (pdf.drop after) dictionary)
  let payload ← decoded inflate raw dictionary
  return ⟨dictionary, payload⟩

/-- One big-endian field of a row, while it fits a `usize`. -/
def rowField (bytes : Bytes) : Option Nat :=
  bytes.foldlM (fun acc b =>
    let value := acc * 256 + b.toNat
    if value ≤ usizeMax then some value else none) 0

/-- `entry_from_row`, for the three widths of `/W`. -/
def entryFromRow (number : Nat) (row : Bytes) (w0 w1 w2 : Nat) : Except PdfError XrefEntry := do
  let kind ← okOr .missingTrailer (rowField (row.take w0))
  let field1 ← okOr .missingTrailer (rowField ((row.drop w0).take w1))
  let field2 ← okOr .missingTrailer (rowField ((row.drop (w0 + w1)).take w2))
  let kind := if w0 = 0 then 1 else kind
  if kind = 1 then return ⟨number, 0, .direct field1⟩
  else if kind = 2 then
    let container ← okOr .missingTrailer (narrow u32Max field1)
    let position ← okOr .missingTrailer (narrow u32Max field2)
    return ⟨number, 0, .compressed container position⟩
  else return ⟨number, 0, .free⟩

/-- The rows of one subsection: the next one is that of `first + entry`. -/
def subsectionEntries (w0 w1 w2 first : Nat) :
    Nat → Nat → Bytes → Except PdfError (List XrefEntry × Bytes)
  | 0, _, payload => .ok ([], payload)
  | count + 1, entry, payload => do
    let row ← okOr .missingTrailer (slice payload 0 (w0 + w1 + w2))
    let number ← okOr .missingTrailer (narrow u32Max (first + entry))
    let found ← entryFromRow number row w0 w1 w2
    let (others, rest) ←
      subsectionEntries w0 w1 w2 first count (entry + 1) (payload.drop (w0 + w1 + w2))
    return (found :: others, rest)

/-- The loop of `stream_entries` over the pairs of `/Index`. -/
def streamEntriesLoop (w0 w1 w2 : Nat) :
    List Nat → Bytes → Except PdfError (List XrefEntry)
  | first :: count :: subsections, payload => do
    let (entries, rest) ← subsectionEntries w0 w1 w2 first count 0 payload
    let others ← streamEntriesLoop w0 w1 w2 subsections rest
    return entries ++ others
  | _, _ => .ok []

/-- `stream_entries`. -/
def streamEntries (payload : Bytes) (w0 w1 w2 : Nat) (subsections : List Nat) :
    Outcome (List XrefEntry) := do
  -- the sum of the widths is taken with overflow checks
  if usizeMax < w0 + w1 ∨ usizeMax < w0 + w1 + w2 then .error .panic
  else if w0 + w1 + w2 = 0 ∨ subsections.length % 2 ≠ 0 then fail .missingTrailer
  else lift (streamEntriesLoop w0 w1 w2 subsections payload)

/-- `parse_stream_section`. -/
def parseStreamSection (pdf : Bytes) (offset : Nat) : Outcome XrefSection := do
  let object ← parseStreamObject inflate pdf offset
  lift (ensure (findFirst object.dictionary (ascii "/XRef")).isSome .missingTrailer)
  match integerArray object.dictionary (ascii "/W") with
  | [w0, w1, w2] =>
    let size ← lift (okOr .missingTrailer (dictionaryUsize object.dictionary (ascii "/Size")))
    let named := integerArray object.dictionary (ascii "/Index")
    let subsections := if named.isEmpty then [0, size] else named
    let entries ← streamEntries object.payload w0 w1 w2 subsections
    return ⟨object.dictionary, entries, true⟩
  | _ => fail .missingTrailer

/-- The slice of an object stream that holds the object at `position`. -/
def compressedSlice (object : StreamObject) (number position : Nat) : Option Bytes := do
  let first ← dictionaryUsize object.dictionary (ascii "/First")
  let count ← dictionaryUsize object.dictionary (ascii "/N")
  if count ≤ position then none
  let header ← slice object.payload 0 first
  let tokens := words header
  let declared ← parseU32 (← tokens[position * 2]?)
  if declared ≠ number then none
  let start := first + (← parseUsize (← tokens[position * 2 + 1]?))
  let stop ←
    if position + 1 < count then
      (do return first + (← parseUsize (← tokens[(position + 1) * 2 + 1]?)) : Option Nat)
    else some object.payload.length
  slice object.payload start stop

/-- `compressed_body`. -/
def compressedBody (pdf : Bytes) (containerOffset number position : Nat) :
    Outcome (Option Bytes) :=
  match parseStreamObject inflate pdf containerOffset with
  | .ok object => .ok (compressedSlice object number position)
  | .error (.error _) => .ok none
  | .error .panic => .error .panic

/-! ## §5. Cross-reference tables -/

/-- The entries of one table subsection. -/
def tableEntries (pdf : Bytes) (start : Nat) :
    Nat → Nat → Nat → Except PdfError (List XrefEntry × Nat)
  | 0, _, cursor => .ok ([], cursor)
  | count + 1, index, cursor => do
    let (offset, cursor) ← numberToken parseUsize pdf cursor
    let (generation, cursor) ← numberToken parseU16 pdf cursor
    let (flag, cursor) ← okOr .missingTrailer (readPdfToken pdf cursor)
    let number ← okOr .missingTrailer (narrow u32Max (start + index))
    let location := if flag = ascii "n" then XrefLocation.direct offset else .free
    let (others, cursor) ← tableEntries pdf start count (index + 1) cursor
    return (⟨number, generation, location⟩ :: others, cursor)

/-- The subsections of a table up to `trailer`, and the trailer dictionary.  Each turn moves the
    cursor, so a fuel beyond the length of the document never runs out. -/
def tableSections (pdf : Bytes) : Nat → Nat → Except PdfError (List XrefEntry × Bytes)
  | 0, _ => .error .missingTrailer
  | fuel + 1, cursor => do
    let (token, cursor) ← okOr .missingTrailer (readPdfToken pdf cursor)
    if token = ascii "trailer" then
      let (trailer, _) ← okOr .missingTrailer (dictionaryAt pdf cursor)
      return ([], trailer)
    else
      let start ← okOr .missingTrailer (parseU32 token)
      let (count, cursor) ← numberToken parseU32 pdf cursor
      let (entries, cursor) ← tableEntries pdf start count 0 cursor
      let (others, trailer) ← tableSections pdf fuel cursor
      return (entries ++ others, trailer)

/-- `hybrid_merged`. -/
def hybridMerged (pdf trailer : Bytes) (entries : List XrefEntry) : Outcome XrefSection := do
  match dictionaryUsize trailer (ascii "/XRefStm") with
  | none => return ⟨trailer, entries, false⟩
  | some hybrid =>
    let stream ← parseStreamSection inflate pdf (skipPdfWhitespace pdf hybrid)
    return ⟨trailer, stream.entries ++ entries, false⟩

/-- `parse_xref_section`. -/
def parseXrefSection (pdf : Bytes) (offset : Nat) : Outcome XrefSection := do
  let cursor := skipPdfWhitespace pdf offset
  if pdf.length < cursor then fail .missingStartXref
  else if (ascii "xref").isPrefixOf (pdf.drop cursor) then
    let (entries, trailer) ← lift (tableSections pdf (pdf.length + 1) (cursor + 4))
    hybridMerged inflate pdf trailer entries
  else parseStreamSection inflate pdf cursor

/-! ## §6. The chain -/

/-- `find_start_xref`. -/
def findStartXref (pdf : Bytes) : Except PdfError Nat := do
  let at_ ← okOr .missingStartXref (findLast pdf (ascii "startxref"))
  okOr .missingStartXref (parseUsize (leadingDigits (pdf.drop (at_ + 9))))

/-- Entries of an older section, where no newer one names the number. -/
def mergeEntries (objects : List XrefEntry) : List XrefEntry → List XrefEntry
  | [] => objects
  | entry :: entries =>
    if objects.any fun existing => existing.number = entry.number then
      mergeEntries objects entries
    else mergeEntries (objects ++ [entry]) entries

/-- The state of the loop of `PdfIndex::parse`. -/
structure Chain where
  next : Option Nat
  visited : List Nat
  newest : Option (Bytes × Bool)
  objects : List XrefEntry
  deriving Repr, DecidableEq

/-- One turn: the section at the next offset. -/
def chainStep (pdf : Bytes) (offset : Nat) (s : Chain) : Outcome Chain := do
  lift (ensure (!s.visited.contains offset) .missingTrailer)
  let found ← parseXrefSection inflate pdf offset
  return { next := dictionaryUsize found.trailer (ascii "/Prev")
           visited := s.visited ++ [offset]
           newest := s.newest.or (some (found.trailer, found.isStream))
           objects := mergeEntries s.objects found.entries }

/-- The loop of `PdfIndex::parse`. -/
def chainLoop (pdf : Bytes) : Nat → Chain → Outcome Chain
  | 0, s => .ok s
  | turns + 1, s =>
    match s.next with
    | none => .ok s
    | some offset => do
      let s' ← chainStep inflate pdf offset s
      chainLoop pdf turns s'

/-- `PdfIndex::MAX_XREF_DEPTH`. -/
def maxXrefDepth : Nat := 64

/-- `PdfIndex::parse`. -/
def PdfIndex.parse (pdf : Bytes) : Outcome PdfIndex := do
  let startXref ← lift (findStartXref pdf)
  let s ← chainLoop inflate pdf maxXrefDepth ⟨some startXref, [], none, []⟩
  let (trailer, isStream) ← lift (okOr .missingTrailer s.newest)
  return ⟨pdf, trailer, startXref, isStream, s.objects⟩

/-! ## §7. Objects -/

/-- `object_body_at`. -/
def objectBodyAt (pdf : Bytes) (number generation offset : Nat) : Option Bytes := do
  let (token, cursor) ← readPdfToken pdf offset
  let actualNumber ← parseU32 token
  let (token, cursor) ← readPdfToken pdf cursor
  let actualGeneration ← parseU16 token
  let (keyword, cursor) ← readPdfToken pdf cursor
  if actualNumber ≠ number ∨ actualGeneration ≠ generation ∨ keyword ≠ ascii "obj" then none
  let (body, _) ← splitOnce (ascii "endobj") (pdf.drop cursor)
  return body

/-- `PdfIndex::object_body_reference`. -/
def PdfIndex.objectBodyReference (index : PdfIndex) (target : PdfObjectReference) :
    Outcome (Option Bytes) :=
  match index.objects.find? fun entry =>
      entry.number = target.number && entry.generation = target.generation with
  | none => .ok none
  | some entry =>
    match entry.location with
    | .free => .ok none
    | .direct offset => .ok (objectBodyAt index.pdf target.number target.generation offset)
    | .compressed container position =>
      match index.objects.find? fun carrier => carrier.number = container with
      | none => .ok none
      | some carrier =>
        match carrier.location with
        | .direct offset => compressedBody inflate index.pdf offset target.number position
        | _ => .ok none

/-- `PdfIndex::object_body`. -/
def PdfIndex.objectBody (index : PdfIndex) (number : Nat) : Outcome (Option Bytes) :=
  index.objectBodyReference inflate ⟨number, 0⟩

/-- `validation_references`. -/
def validationReferences (index : PdfIndex) (bytes : Bytes) :
    Outcome (List PdfObjectReference) := do
  if (ascii "[").isPrefixOf (skipTrivia bytes) then lift (completeReferenceArray bytes)
  else
    let found ← lift (completeObjectReference bytes)
    let target ← lift (okOr .unreadableValidationStore found)
    let array ← index.objectBodyReference inflate target
    let body ← lift (okOr (.missingObject target.number) array)
    lift (completeReferenceArray body)

end

end Pdf

end RefineId
