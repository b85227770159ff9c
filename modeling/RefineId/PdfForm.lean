/-
  RefineId.PdfForm — what an update reads of the old form and pages, and how it edits them.
  ════════════════════════════════════════════════════════════════════════════

  `pades.rs`: the names of the existing form fields, the page that carries the widget, and
  the byte edits that put one more reference into an array or one more entry into a
  dictionary.
-/
import RefineId.PdfIndex
import RefineId.Lib.Loop

namespace RefineId

namespace Pdf

open Lib

/-! ## §1. Byte edits -/

/-- `append_to_array`: `entry` before the first `]` of the array that opens after `from`. -/
def appendToArray (body : Bytes) (start : Nat) (entry : Bytes) : Bytes :=
  match findFirst (body.drop start) (ascii "[") with
  | none => body
  | some opened =>
    match findFirst (body.drop (start + opened)) (ascii "]") with
    | none => body
    | some closed =>
      let close := start + opened + closed
      body.take close ++ ascii " " ++ entry ++ body.drop close

/-- `insert_into_dictionary`. -/
def insertIntoDictionary (object entry key : Bytes) : Bytes :=
  if (findFirst object key).isSome then object
  else
    match findLast object (ascii ">>") with
    | none => object
    | some close => object.take close ++ ascii "\n" ++ entry ++ ascii "\n>>" ++ object.drop (close + 2)

/-! ## §2. Field names -/

/-- `MAX_FORM_FIELD_OBJECTS`. -/
def maxFormFieldObjects : Nat := 4096

/-- `MAX_FORM_FIELD_DEPTH`. -/
def maxFormFieldDepth : Nat := 64

/-- `MAX_FIELD_NAME_BYTES`. -/
def maxFieldNameBytes : Nat := 4096

/-- An octal digit. -/
def octalDigit (b : UInt8) : Option Nat :=
  if 48 ≤ b && b ≤ 55 then some (b.toNat - 48) else none

/-- At most `limit` more octal digits. -/
def octalTail : Nat → Nat → Bytes → Nat × Bytes
  | 0, value, rest => (value, rest)
  | _ + 1, value, [] => (value, [])
  | limit + 1, value, b :: rest =>
    match octalDigit b with
    | some digit => octalTail limit (value * 8 + digit) rest
    | none => (value, b :: rest)

/-- What an escape stands for, and what is left after it. -/
def literalEscape (escaped : UInt8) (rest : Bytes) : Except PdfError (Bytes × Bytes) :=
  if escaped = byte 'n' then .ok ([10], rest)
  else if escaped = byte 'r' then .ok ([13], rest)
  else if escaped = byte 't' then .ok ([9], rest)
  else if escaped = byte 'b' then .ok ([8], rest)
  else if escaped = byte 'f' then .ok ([12], rest)
  else if escaped = 13 then .ok ([], dropHead? 10 rest)
  else if escaped = 10 then .ok ([], rest)
  else
    match octalDigit escaped with
    | some digit =>
      let (value, rest') := octalTail 2 digit rest
      if value ≤ 255 then .ok ([UInt8.ofNat value], rest') else .error .unreadableForm
    | none => .ok ([escaped], rest)

/-- `decode_literal_string`, a turn for each plain byte or escape; the length of what is decoded
    is checked after an escape only. -/
def decodeLiteralTurn (s : Bytes × Bytes) : Turn (Bytes × Bytes) (Except PdfError Bytes) :=
  match s.2 with
  | [] => .done (.ok s.1)
  | b :: rest =>
    if b ≠ byte '\\' then .next (s.1 ++ [b], rest)
    else
      match rest with
      | [] => .done (.error .unreadableForm)
      | escaped :: rest' =>
        match literalEscape escaped rest' with
        | .error e => .done (.error e)
        | .ok (plain, rest'') =>
          if maxFieldNameBytes < (s.1 ++ plain).length then .done (.error .unreadableForm)
          else .next (s.1 ++ plain, rest'')

/-- `decode_literal_string`. -/
def decodeLiteralString (encoded : Bytes) : Except PdfError Bytes :=
  (loop decodeLiteralTurn (encoded.length + 1) ([], encoded)).getD (.error .unreadableForm)

/-- The loop of `decode_hex_string`. -/
def decodeHexLoop (decoded : Bytes) (high : Option Nat) : Bytes → Except PdfError Bytes
  | [] =>
    match high with
    | some first => .ok (decoded ++ [UInt8.ofNat (first * 16)])
    | none => .ok decoded
  | b :: rest =>
    if isWhitespace b then decodeHexLoop decoded high rest
    else
      match hexDigit b with
      | none => .error .unreadableForm
      | some digit =>
        match high with
        | some first =>
          if maxFieldNameBytes < decoded.length + 1 then .error .unreadableForm
          else decodeHexLoop (decoded ++ [UInt8.ofNat (first * 16 + digit)]) none rest
        | none =>
          if maxFieldNameBytes < decoded.length then .error .unreadableForm
          else decodeHexLoop decoded (some digit) rest

/-- `decode_hex_string`. -/
def decodeHexString (encoded : Bytes) : Except PdfError Bytes := decodeHexLoop [] none encoded

/-- Big-endian pairs. -/
def utf16Units : Bytes → List Nat
  | high :: low :: rest => (high.toNat * 256 + low.toNat) :: utf16Units rest
  | _ => []

/-- `String::from_utf16`. -/
def fromUtf16 : List Nat → Option Text
  | [] => some []
  | [unit] =>
    if unit < 0xD800 ∨ 0xDFFF < unit then some [Char.ofNat unit] else none
  | unit :: low :: rest =>
    if unit < 0xD800 ∨ 0xDFFF < unit then
      (fromUtf16 (low :: rest)).map fun text => Char.ofNat unit :: text
    else if unit < 0xDC00 ∧ 0xDC00 ≤ low ∧ low ≤ 0xDFFF then
      (fromUtf16 rest).map fun text =>
        Char.ofNat (0x10000 + (unit - 0xD800) * 0x400 + (low - 0xDC00)) :: text
    else none

/-- `str::is_ascii`, and then the text. -/
def asciiOnly (text : Text) : Option Text :=
  if text.all fun c => c.toNat < 128 then some text else none

/-- `value[1..value.len() - 1]`. -/
def inner (bytes : Bytes) : Bytes := bytes.tail.dropLast

/-- `ascii_field_name`. -/
def asciiFieldName (value : Bytes) : Except PdfError (Option Text) := do
  let decoded ←
    if value.head? = some (byte '(') && value.getLast? = some (byte ')') then
      decodeLiteralString (inner value)
    else if value.head? = some (byte '<') && value.getLast? = some (byte '>') &&
        !(ascii "<<").isPrefixOf value then
      decodeHexString (inner value)
    else .error .unreadableForm
  if maxFieldNameBytes < decoded.length then .error .unreadableForm
  else
    match consume [0xFE, 0xFF] decoded with
    | some encoded =>
      if encoded.length % 2 ≠ 0 then .error .unreadableForm
      else
        let text ← okOr .unreadableForm (fromUtf16 (utf16Units encoded))
        return asciiOnly text
    | none =>
      match consume [0xEF, 0xBB, 0xBF] decoded with
      | some encoded =>
        let text ← okOr .unreadableForm (fromUtf8 encoded)
        return asciiOnly text
      | none =>
        if decoded.all fun b => b < 0x80 then
          let text ← okOr .unreadableForm (fromUtf8 decoded)
          return some text
        else return none

/-- `qualified_field_name`. -/
def qualifiedFieldName (parent component : Option Text) : Except PdfError (Option Text) :=
  match parent, component with
  | some parent, some component =>
    let qualified := if parent.isEmpty then component else parent ++ chars "." ++ component
    if maxFieldNameBytes < (utf8Encode qualified).length then .error .unreadableForm
    else .ok (some qualified)
  | _, _ => .ok none

/-- `Reserved`. -/
inductive Reserved where
  | signature
  | documentTimestamp
  deriving Repr, DecidableEq

/-- `Reserved::dictionary_head`. -/
def Reserved.dictionaryHead : Reserved → Bytes × Bytes
  | .signature => (ascii "/Sig", ascii "/ETSI.CAdES.detached")
  | .documentTimestamp => (ascii "/DocTimeStamp", ascii "/ETSI.RFC3161")

/-- `Reserved::field_name_base`. -/
def Reserved.fieldNameBase (kind : Reserved) (signatureNumber : Nat) : Text :=
  match kind with
  | .signature => chars "Signature" ++ Nat.toDigits 10 signatureNumber
  | .documentTimestamp => chars "Timestamp" ++ Nat.toDigits 10 signatureNumber

/-- The error of a form that cannot be read; a panic stays a panic. -/
def asUnreadableForm {α : Type} (x : Outcome α) : Outcome α :=
  x.mapError fun
    | .error _ => .error .unreadableForm
    | .panic => .panic

/-- A field still to be visited: its reference, the name of its parent, its depth. -/
structure PendingField where
  target : PdfObjectReference
  parentName : Option Text
  depth : Nat
  deriving Repr, DecidableEq

/-- The state of the loop of `existing_field_names`; the stack's top is the head of the list. -/
structure FieldWalk where
  pending : List PendingField
  visited : List PdfObjectReference
  names : List Text
  deriving Repr, DecidableEq

section
variable (inflate : Bytes → Option Bytes) (index : PdfIndex)

/-- The name of a field, and the names with it. -/
def fieldNames (field : Bytes) (dictionary : PdfDictionary) (parentName : Option Text)
    (names : List Text) : Outcome (Option Text × List Text) := do
  match ← asUnreadableForm (lift (dictionary.entry (ascii "T"))) with
  | none => return (parentName, names)
  | some entry =>
    let component ← lift (asciiFieldName (entry.value.of field))
    let qualified ← lift (qualifiedFieldName parentName component)
    match qualified with
    | some name => return (qualified, if name.isEmpty then names else name :: names)
    | none => return (qualified, names)

/-- One field of the walk: its name, then its children on top of the stack. -/
def visitField (next : PendingField) (s : FieldWalk) : Outcome FieldWalk := do
  if maxFormFieldDepth < next.depth ∨ maxFormFieldObjects ≤ s.visited.length ∨
      next.target ∈ s.visited then fail .unreadableForm
  else
    let body ← index.objectBodyReference inflate next.target
    let field ← lift (okOr .unreadableForm body)
    let dictionary ← asUnreadableForm (lift (PdfDictionary.parse field))
    let (fieldName, names) ← fieldNames field dictionary next.parentName s.names
    let visited := next.target :: s.visited
    match ← asUnreadableForm (lift (dictionary.entry (ascii "Kids"))) with
    | none => return ⟨s.pending, visited, names⟩
    | some entry =>
      let children ← asUnreadableForm (validationReferences inflate index (entry.value.of field))
      if maxFormFieldObjects < s.pending.length + children.length then fail .unreadableForm
      else
        let kids := children.map fun child => ⟨child, fieldName, next.depth + 1⟩
        return ⟨kids ++ s.pending, visited, names⟩

/-- One turn of `existing_field_names`. -/
def fieldWalkTurn (s : FieldWalk) : Turn FieldWalk (Outcome (List Text)) :=
  match s.pending with
  | [] => .done (.ok s.names)
  | next :: pending =>
    match visitField inflate index next { s with pending := pending } with
    | .ok s' => .next s'
    | .error e => .done (.error e)

/-- `existing_field_names`.  Every turn visits one more object and a turn beyond the limit is
    refused, so the fuel never runs out. -/
def existingFieldNames (catalog : Bytes) : Outcome (List Text) := do
  let catalogDictionary ← asUnreadableForm (lift (PdfDictionary.parse catalog))
  match ← asUnreadableForm (lift (catalogDictionary.entry (ascii "AcroForm"))) with
  | none => return []
  | some acroformEntry =>
    let acroformValue := acroformEntry.value.of catalog
    let found ← asUnreadableForm (lift (completeObjectReference acroformValue))
    let acroform ← match found with
      | some target => do
        let body ← index.objectBodyReference inflate target
        lift (okOr .unreadableForm body)
      | none => pure acroformValue
    let acroformDictionary ← asUnreadableForm (lift (PdfDictionary.parse acroform))
    match ← asUnreadableForm (lift (acroformDictionary.entry (ascii "Fields"))) with
    | none => return []
    | some fieldsEntry =>
      let roots ← asUnreadableForm
        (validationReferences inflate index (fieldsEntry.value.of acroform))
      if maxFormFieldObjects < roots.length then fail .unreadableForm
      else
        let pending := roots.map fun root => ⟨root, some [], 1⟩
        (loop (fieldWalkTurn inflate index) (maxFormFieldObjects + 2) ⟨pending, [], []⟩).getD
          (fail .unreadableForm)

/-- Membership among names is decided by comparing character by character. -/
local instance lawfulNames : LawfulBEq Text := inferInstance

/-- The first free name among `base-suffix`, for `count` suffixes from `suffix` on. -/
def freeSuffix (used : List Text) (base : Text) : Nat → Nat → Option Text
  | 0, _ => none
  | count + 1, suffix =>
    let candidate := base ++ chars "-" ++ Nat.toDigits 10 suffix
    if candidate ∈ used then freeSuffix used base count (suffix + 1) else some candidate

/-- `unique_field_name`; the set's size is that of the names without repetitions. -/
def uniqueFieldName (catalog : Bytes) (kind : Reserved) (signatureNumber : Nat) :
    Outcome Text := do
  let used ← existingFieldNames inflate index catalog
  let base := kind.fieldNameBase signatureNumber
  if base ∉ used then return base
  else lift (okOr .unreadableForm (freeSuffix used base (used.dedup.length + 1) 2))

/-! ## §3. Pages -/

/-- `last_reference`, over the words seen so far. -/
def lastReferenceLoop (last : Option Nat) (twoBack oneBack : Option Bytes) :
    List Bytes → Option Nat
  | [] => last
  | token :: tokens =>
    let last' :=
      if token = ascii "R" && oneBack.any (fun generation => generation.all isAsciiDigit) then
        (twoBack.bind strParseU32).or last
      else last
    lastReferenceLoop last' oneBack (some token) tokens

/-- `last_reference`. -/
def lastReference (bytes : Bytes) : Option Nat := lastReferenceLoop none none none (words bytes)

/-- The first member of `/Kids`. -/
def firstKid (after : Bytes) : Option Nat := do
  let (_, members) ← splitOnce (ascii "[") after
  leadingReference members

/-- The last member of `/Kids`. -/
def lastKid (after : Bytes) : Option Nat := do
  let (_, rest) ← splitOnce (ascii "[") after
  let (members, _) ← splitOnce (ascii "]") rest
  lastReference members

/-- The walk down the page tree, at most `depth` nodes. -/
def pageWalk (kid : Bytes → Option Nat) : Nat → Nat → Outcome Nat
  | 0, _ => fail .missingPageTree
  | depth + 1, number => do
    let body ← index.objectBody inflate number
    let node ← lift (okOr (.missingObject number) body)
    match afterKey node (ascii "/Kids") with
    | none => return number
    | some after =>
      let next ← lift (okOr .missingPageTree (kid after))
      pageWalk kid depth next

/-- The page walk from the catalog; both walks of the source visit at most 32 nodes. -/
def pageNumber (kid : Bytes → Option Nat) (catalog : Bytes) : Outcome Nat := do
  let number ← lift (okOr .missingPageTree (dictionaryReference catalog (ascii "/Pages")))
  pageWalk inflate index kid 32 number

/-- `first_page_number`. -/
def firstPageNumber (catalog : Bytes) : Outcome Nat := pageNumber inflate index firstKid catalog

/-- `last_page_number`. -/
def lastPageNumber (catalog : Bytes) : Outcome Nat := pageNumber inflate index lastKid catalog

/-- `signature_page`. -/
def signaturePage (catalog : Bytes) (visible : Bool) : Outcome (Nat × Bytes) := do
  let number ←
    if visible then lastPageNumber inflate index catalog
    else firstPageNumber inflate index catalog
  let body ← index.objectBody inflate number
  let page ← lift (okOr (.missingObject number) body)
  return (number, page)

/-- `AnnotsTarget`. -/
inductive AnnotsTarget where
  | page (body : Bytes)
  | array (number : Nat)
  deriving Repr, DecidableEq

/-- `plan_annotation`. -/
def planAnnotation (page : Bytes) (number : Nat) : AnnotsTarget :=
  let entry := referenceText number
  match findFirst page (ascii "/Annots") with
  | none =>
    .page (insertIntoDictionary page (ascii "/Annots [" ++ entry ++ ascii "]") (ascii "/Annots"))
  | some at_ =>
    let after := at_ + 7
    let rest := page.drop after
    if (rest.dropWhile isAsciiWhitespace).head? = some (byte '[') then
      .page (appendToArray page after entry)
    else
      match leadingReference rest with
      | some array => .array array
      | none => .page page

/-- `FieldListTarget`: the object to reissue, the catalog or another. -/
inductive FieldListTarget where
  | catalog (body : Bytes)
  | object (number : Nat) (body : Bytes)
  deriving Repr, DecidableEq

/-- `let Some(number) = indirect_value(..) && let Some(body) = index.object_body(number)`. -/
def indirectObject (dictionary key : Bytes) : Outcome (Option (Nat × Bytes)) :=
  match indirectValue dictionary key with
  | none => .ok none
  | some number => do
    let body ← index.objectBody inflate number
    return body.map fun body => (number, body)

/-- `plan_field_list`. -/
def planFieldList (catalog : Bytes) (fieldNumber : Nat) : Outcome FieldListTarget := do
  let entry := referenceText fieldNumber
  match ← indirectObject inflate index catalog (ascii "/AcroForm") with
  | some (acroformNumber, acroform) =>
    match ← indirectObject inflate index acroform (ascii "/Fields") with
    | some (fieldsNumber, fields) => return .object fieldsNumber (appendToArray fields 0 entry)
    | none =>
      match findFirst acroform (ascii "/Fields") with
      | some at_ => return .object acroformNumber (appendToArray acroform at_ entry)
      | none =>
        let text := ascii "/Fields [" ++ entry ++ ascii "]"
        return .object acroformNumber (insertIntoDictionary acroform text (ascii "/Fields"))
  | none =>
    match findFirst catalog (ascii "/Fields") with
    | some at_ => return .catalog (appendToArray catalog at_ entry)
    | none =>
      let text := ascii "/AcroForm << /Fields [" ++ entry ++ ascii "] /SigFlags 3 >>"
      return .catalog (insertIntoDictionary catalog text (ascii "/AcroForm"))

end

end Pdf

end RefineId
