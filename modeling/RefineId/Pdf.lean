/-
  RefineId.Pdf — the byte-level reader of PDF syntax.
  ════════════════════════════════════════════════════════════════════════════

  `crates/refineid-doc-sign/src/pades.rs`, the part that looks at bytes: searches for a key,
  tokens between white space, decimal numbers, the scanner that finds the end of a dictionary,
  and the strict parser of one dictionary value that keeps the byte span of every entry.

  The scanners of the source walk an offset over a slice.  Here the offset is a number where
  the source hands it on, and the remaining list where a loop runs over it.

  Main results:
    • `words_token_blank`  : a token is read up to the white space behind it.
    • `parseUsize_decimal` : a written number is read back.
-/
import RefineId.Ber
import RefineId.Lib.Outcome
import RefineId.Lib.Search
import RefineId.Lib.Utf8

namespace RefineId

namespace Pdf

open Lib

/-! ## §1. Errors -/

/-- `PdfError`. -/
inductive PdfError where
  | notAPdf
  | missingStartXref
  | missingTrailer
  | missingCatalogReference
  | missingObject (number : Nat)
  | unsupportedCrossReferenceStream
  | unsupportedEncryption
  | missingPageTree
  | unreadableForm
  | unreadableValidationStore
  | signatureTooLarge (needed capacity : Nat)
  deriving Repr, DecidableEq

/-- How a call ends that returns no value: with an error of the source, or with a panic
    (the release profile checks overflows and aborts on a panic). -/
inductive Halt where
  | error (e : PdfError)
  | panic
  deriving Repr, DecidableEq

/-- What a call that may panic gives. -/
abbrev Outcome (α : Type) := Except Halt α

/-- `Err(e)`, where the call may also panic. -/
def fail {α : Type} (e : PdfError) : Outcome α := .error (.error e)

/-- A result of code that cannot panic. -/
def lift {α : Type} (x : Except PdfError α) : Outcome α := x.mapError .error

theorem lift_eq_ok {α : Type} {x : Except PdfError α} {a : α} : lift x = .ok a ↔ x = .ok a :=
  mapError_eq_ok_iff

/-! ## §2. Bytes -/

/-- `b'c'`. -/
def byte (c : Char) : UInt8 := UInt8.ofNat c.toNat

/-- `b"…"`. -/
def ascii (s : String) : Bytes := s.toList.map byte

/-- The bytes of a literal, one by one.  Rewriting with this spares the kernel the decoding of the
    literal's octets. -/
theorem ascii_ofList (l : List Char) : ascii (String.ofList l) = l.map byte := by
  rw [ascii, String.toList_ofList]

theorem ascii_append (s t : String) : ascii (s ++ t) = ascii s ++ ascii t := by
  rw [ascii, String.toList_append, List.map_append, ascii, ascii]

def u16Max : Nat := 2 ^ 16 - 1

def u32Max : Nat := 2 ^ 32 - 1

/-- `u8::is_ascii_whitespace`: blank, tab, line feed, form feed, carriage return. -/
def isAsciiWhitespace (b : UInt8) : Bool := b = 32 || b = 9 || b = 10 || b = 12 || b = 13

/-- `u8::is_ascii_digit`. -/
def isAsciiDigit (b : UInt8) : Bool := 48 ≤ b && b ≤ 57

/-- `find_first`, for the nonempty needles the source uses. -/
def findFirst (haystack needle : Bytes) : Option Nat :=
  (splitOnce needle haystack).map fun parts => parts.1.length

/-- `find_last`. -/
def findLast (haystack needle : Bytes) : Option Nat :=
  match haystack with
  | [] => none
  | b :: bs =>
    match findLast bs needle with
    | some at_ => some (at_ + 1)
    | none => if needle.isPrefixOf (b :: bs) then some 0 else none

/-- Index of the first byte that is not white space. -/
def firstToken (bytes : Bytes) : Option Nat :=
  bytes.findIdx? fun b => !isAsciiWhitespace b

/-- `bytes.split(u8::is_ascii_whitespace)`, the empty pieces left out. -/
def words (bytes : Bytes) : List Bytes :=
  (bytes.splitOnP isAsciiWhitespace).filter fun token => !token.isEmpty

theorem words_cons_blank {b : UInt8} (hb : isAsciiWhitespace b = true) (rest : Bytes) :
    words (b :: rest) = words rest := by
  unfold words
  rw [List.splitOnP_cons_eq_if_splitOnPPrepend, if_pos hb]
  rfl

theorem words_blanks (n : Nat) (rest : Bytes) : words (List.replicate n 32 ++ rest) = words rest := by
  induction n with
  | zero => rfl
  | succ n ih =>
    rw [List.replicate_succ, List.cons_append, words_cons_blank (by decide), ih]

theorem words_token {token : Bytes} (hne : token ≠ [])
    (hplain : ∀ b ∈ token, isAsciiWhitespace b = false) : words token = [token] := by
  unfold words
  rw [List.splitOnP_eq_singleton hplain]
  simp [hne]

theorem words_token_blank {token : Bytes} (hne : token ≠ [])
    (hplain : ∀ b ∈ token, isAsciiWhitespace b = false) {b : UInt8}
    (hb : isAsciiWhitespace b = true) (rest : Bytes) :
    words (token ++ b :: rest) = token :: words rest := by
  unfold words
  rw [List.splitOnP_append_cons_of_forall_mem hplain b hb]
  simp [hne]

/-! ## §3. Numbers -/

/-- One digit more, while the number fits. -/
def pushDigit (out : Nat) (digit : UInt8) : Option Nat :=
  let value := out * 10 + (digit.toNat - 48)
  if value ≤ usizeMax then some value else none

/-- `parse_usize`. -/
def parseUsize (digits : Bytes) : Option Nat :=
  if digits.isEmpty || !digits.all isAsciiDigit then none else digits.foldlM pushDigit 0

/-- `u32::try_from` and `u16::try_from` of a `usize`. -/
def narrow (max value : Nat) : Option Nat := if value ≤ max then some value else none

/-- `parse_u32`. -/
def parseU32 (digits : Bytes) : Option Nat := (parseUsize digits).bind (narrow u32Max)

/-- `parse_u16`. -/
def parseU16 (digits : Bytes) : Option Nat := (parseUsize digits).bind (narrow u16Max)

/-- `str::parse::<u32>`, which also takes a plus sign in front. -/
def strParseU32 (token : Bytes) : Option Nat :=
  if token.head? = some (byte '+') then parseU32 token.tail else parseU32 token

/-- An unsigned number as `{}` prints it. -/
def decimal (n : Nat) : Bytes := (Nat.toDigits 10 n).map byte

/-- `N 0 R`. -/
def referenceText (number : Nat) : Bytes := decimal number ++ ascii " 0 R"

theorem byte_toNat {c : Char} (h : c.toNat < 256) : (byte c).toNat = c.toNat := by
  unfold byte
  rw [UInt8.toNat_ofNat', Nat.mod_eq_of_lt h]

theorem isDigit_bounds {c : Char} (h : c.isDigit = true) : 48 ≤ c.toNat ∧ c.toNat ≤ 57 := by
  simp only [Char.isDigit, Bool.and_eq_true, decide_eq_true_eq] at h
  exact h

theorem isAsciiDigit_byte {c : Char} (h : c.isDigit = true) : isAsciiDigit (byte c) = true := by
  obtain ⟨hlow, hhigh⟩ := isDigit_bounds h
  have hb : (byte c).toNat = c.toNat := byte_toNat (by omega)
  simp only [isAsciiDigit, Bool.and_eq_true, decide_eq_true_eq, UInt8.le_iff_toNat_le, hb]
  exact ⟨hlow, hhigh⟩

theorem decimal_ne_nil (n : Nat) : decimal n ≠ [] := by
  simp [decimal]

theorem decimal_digits {n : Nat} {b : UInt8} (h : b ∈ decimal n) : isAsciiDigit b = true := by
  obtain ⟨c, hc, rfl⟩ := List.mem_map.mp h
  exact isAsciiDigit_byte (Nat.isDigit_of_mem_toDigits (by decide) (by decide) hc)

theorem decimal_length_le_iff {n k : Nat} (h : 0 < k) :
    (decimal n).length ≤ k ↔ n < 10 ^ k := by
  rw [decimal, List.length_map]
  exact Nat.length_toDigits_le_iff (by decide) h

/-- Reading digits never overflows on the way to a number that fits. -/
theorem foldlM_pushDigit {digits : List Char} (hdigits : ∀ c ∈ digits, c.isDigit = true)
    {out : Nat} (hfits : Nat.ofDigitChars 10 digits out ≤ usizeMax) :
    (digits.map byte).foldlM pushDigit out = some (Nat.ofDigitChars 10 digits out) := by
  induction digits generalizing out with
  | nil => rfl
  | cons c cs ih =>
    obtain ⟨hlow, hhigh⟩ := isDigit_bounds (hdigits c List.mem_cons_self)
    rw [Nat.ofDigitChars_cons] at hfits ⊢
    have hvalue : out * 10 + ((byte c).toNat - 48) = 10 * out + (c.toNat - '0'.toNat) := by
      rw [byte_toNat (by omega), Nat.mul_comm]
      rfl
    have hgrow : 10 * out + (c.toNat - '0'.toNat) ≤
        Nat.ofDigitChars 10 cs (10 * out + (c.toNat - '0'.toNat)) := by
      rw [Nat.ofDigitChars_eq_ofDigitChars_zero]
      have hpow : 1 ≤ 10 ^ cs.length := Nat.one_le_pow _ _ (by decide)
      calc 10 * out + (c.toNat - '0'.toNat)
          = 1 * (10 * out + (c.toNat - '0'.toNat)) := (Nat.one_mul _).symm
        _ ≤ 10 ^ cs.length * (10 * out + (c.toNat - '0'.toNat)) := Nat.mul_le_mul_right _ hpow
        _ ≤ _ := Nat.le_add_right _ _
    have hstep : pushDigit out (byte c) = some (10 * out + (c.toNat - '0'.toNat)) := by
      simp only [pushDigit, hvalue]
      exact if_pos (hgrow.trans hfits)
    rw [List.map_cons, List.foldlM_cons, hstep]
    exact ih (fun d hd => hdigits d (List.mem_cons_of_mem c hd)) hfits

/-- **A printed number is read back.** -/
theorem parseUsize_decimal {n : Nat} (h : n ≤ usizeMax) : parseUsize (decimal n) = some n := by
  have hdigits : ∀ c ∈ Nat.toDigits 10 n, c.isDigit = true := fun c hc =>
    Nat.isDigit_of_mem_toDigits (by decide) (by decide) hc
  have hall : (decimal n).all isAsciiDigit = true := List.all_eq_true.mpr fun _ => decimal_digits
  have hnonempty : (decimal n).isEmpty = false := by simp [decimal_ne_nil]
  have hfold := foldlM_pushDigit hdigits (by rwa [Nat.ofDigitChars_ten_toDigits])
  rw [Nat.ofDigitChars_ten_toDigits] at hfold
  rw [parseUsize, hall, hnonempty]
  exact hfold

/-- The digits after leading white space. -/
def leadingDigits (bytes : Bytes) : Bytes :=
  (bytes.dropWhile isAsciiWhitespace).takeWhile isAsciiDigit

/-- `leading_reference`: the digits are all ASCII, so `str::parse` is `parse_u32`. -/
def leadingReference (bytes : Bytes) : Option Nat := parseU32 (leadingDigits bytes)

/-- What stands after the first occurrence of `key`. -/
def afterKey (dictionary key : Bytes) : Option Bytes :=
  (splitOnce key dictionary).map fun parts => parts.2

/-- `dictionary_reference`. -/
def dictionaryReference (dictionary key : Bytes) : Option Nat := do
  let rest ← afterKey dictionary key
  leadingReference rest

/-- `dictionary_usize`. -/
def dictionaryUsize (dictionary key : Bytes) : Option Nat := do
  let rest ← afterKey dictionary key
  parseUsize (leadingDigits rest)

/-- `dictionary_integer`. -/
def dictionaryInteger (dictionary key : Bytes) : Option Nat :=
  (dictionaryUsize dictionary key).bind (narrow u32Max)

/-- `indirect_value`. -/
def indirectValue (dictionary key : Bytes) : Option Nat := do
  let rest ← afterKey dictionary key
  let first ← firstToken rest
  let b ← rest[first]?
  if isAsciiDigit b then leadingReference rest else none

/-! ## §4. Tokens -/

/-- `skip_pdf_whitespace`. -/
def skipPdfWhitespace (pdf : Bytes) (cursor : Nat) : Nat :=
  cursor + ((pdf.drop cursor).takeWhile isAsciiWhitespace).length

/-- `read_pdf_token`: the token, and the cursor after it. -/
def readPdfToken (pdf : Bytes) (cursor : Nat) : Option (Bytes × Nat) :=
  let start := skipPdfWhitespace pdf cursor
  let token := (pdf.drop start).takeWhile fun b => !isAsciiWhitespace b
  if token.isEmpty then none else some (token, start + token.length)

/-- `Scan`. -/
inductive Scan where
  | regular
  | comment
  | hexString
  | literalString (depth : Nat) (escaped : Bool)
  deriving Repr, DecidableEq

/-- `u32::saturating_add(1)`. -/
def deeper (depth : Nat) : Nat := min (depth + 1) u32Max

/-- The next state inside a literal string. -/
def literalStep (depth : Nat) (escaped : Bool) (b : UInt8) : Scan :=
  if escaped then .literalString depth false
  else if b = byte '\\' then .literalString depth true
  else if b = byte '(' then .literalString (deeper depth) false
  else if b = byte ')' then
    if depth - 1 = 0 then .regular else .literalString (depth - 1) false
  else .literalString depth false

/-- The loop of `dictionary_at`: how many bytes it walks until the outermost `>>` is behind it. -/
def dictionaryLength (depth : Nat) (state : Scan) : Bytes → Option Nat
  | [] => none
  | b :: rest =>
    match state with
    | .regular =>
      if b = byte '%' then (dictionaryLength depth .comment rest).map (· + 1)
      else if b = byte '(' then
        (dictionaryLength depth (.literalString 1 false) rest).map (· + 1)
      else if b = byte '<' then
        match rest with
        | [] => none
        | c :: rest' =>
          if c = byte '<' then (dictionaryLength (deeper depth) .regular rest').map (· + 2)
          else (dictionaryLength depth .hexString (c :: rest')).map (· + 1)
      else if b = byte '>' then
        match rest with
        | [] => none
        | c :: rest' =>
          if c = byte '>' then
            -- `depth.checked_sub(1)?`
            if depth = 0 then none
            else if depth = 1 then some 2
            else (dictionaryLength (depth - 1) .regular rest').map (· + 2)
          else (dictionaryLength depth .regular (c :: rest')).map (· + 1)
      else (dictionaryLength depth .regular rest).map (· + 1)
    | .comment =>
      let next := if b = 13 || b = 10 then Scan.regular else .comment
      (dictionaryLength depth next rest).map (· + 1)
    | .hexString =>
      let next := if b = byte '>' then Scan.regular else .hexString
      (dictionaryLength depth next rest).map (· + 1)
    | .literalString inner escaped =>
      (dictionaryLength depth (literalStep inner escaped b) rest).map (· + 1)

/-- `dictionary_at`: the bytes of the dictionary, and the cursor after it. -/
def dictionaryAt (pdf : Bytes) (cursor : Nat) : Option (Bytes × Nat) :=
  let start := skipPdfWhitespace pdf cursor
  if (ascii "<<").isPrefixOf (pdf.drop start) then
    (dictionaryLength 0 .regular (pdf.drop start)).map fun length =>
      ((pdf.drop start).take length, start + length)
  else none

/-! ## §5. The strict parser -/

/-- `PdfObjectReference`. -/
structure PdfObjectReference where
  number : Nat
  generation : Nat
  deriving Repr, DecidableEq

/-- A byte span, `start..stop`. -/
structure Span where
  start : Nat
  stop : Nat
  deriving Repr, DecidableEq

/-- `&bytes[span]`. -/
def Span.of (span : Span) (bytes : Bytes) : Bytes :=
  (bytes.take span.stop).drop span.start

/-- `PdfDictionaryEntry`. -/
structure PdfDictionaryEntry where
  name : Bytes
  value : Span
  deriving Repr, DecidableEq

/-- `PdfDictionary`. -/
structure PdfDictionary where
  entries : List PdfDictionaryEntry
  closing : Nat
  deriving Repr, DecidableEq

/-- `MAX_PDF_VALUE_DEPTH`. -/
def maxPdfValueDepth : Nat := 64

/-- The error of every refusal below. -/
def unreadable {α : Type} : Except PdfError α := .error .unreadableValidationStore

/-- `PdfValueParser::check_depth`. -/
def checkDepth (depth : Nat) : Except PdfError Unit :=
  ensure (depth ≤ maxPdfValueDepth) .unreadableValidationStore

/-- `PdfValueParser::is_whitespace`. -/
def isWhitespace (b : UInt8) : Bool := b = 0 || b = 9 || b = 10 || b = 12 || b = 13 || b = 32

/-- `PdfValueParser::is_delimiter`. -/
def isDelimiter (b : UInt8) : Bool :=
  b = byte '(' || b = byte ')' || b = byte '<' || b = byte '>' || b = byte '[' || b = byte ']' ||
    b = byte '/' || b = byte '%'

/-- A byte of a name, a number or a keyword. -/
def isRegular (b : UInt8) : Bool := !isWhitespace b && !isDelimiter b

/-- `PdfValueParser::hex_digit`. -/
def hexDigit (b : UInt8) : Option Nat :=
  if 48 ≤ b && b ≤ 57 then some (b.toNat - 48)
  else if 97 ≤ b && b ≤ 102 then some (b.toNat - 97 + 10)
  else if 65 ≤ b && b ≤ 70 then some (b.toNat - 65 + 10)
  else none

/-- The loop of `skip_trivia`; the line end that closes a comment is white space itself. -/
def skipTriviaFrom (comment : Bool) : Bytes → Bytes
  | [] => []
  | b :: rest =>
    if comment then skipTriviaFrom (!(b = 13 || b = 10)) rest
    else if isWhitespace b then skipTriviaFrom false rest
    else if b = byte '%' then skipTriviaFrom true rest
    else b :: rest

/-- `PdfValueParser::skip_trivia`. -/
def skipTrivia (rest : Bytes) : Bytes := skipTriviaFrom false rest

/-- `PdfValueParser::consume`. -/
def consume (token rest : Bytes) : Option Bytes :=
  if token.isPrefixOf rest then some (rest.drop token.length) else none

/-- `PdfValueParser::consume_keyword`. -/
def consumeKeyword (keyword rest : Bytes) : Option Bytes := do
  let after ← consume keyword rest
  if after.head?.any isRegular then none else some after

/-- `PdfValueParser::require_end`. -/
def requireEnd (rest : Bytes) : Except PdfError Unit :=
  ensure (skipTrivia rest).isEmpty .unreadableValidationStore

/-- `PdfValueParser::literal_string_remainder`. -/
def literalStringRemainder (depth : Nat) : Bytes → Except PdfError Bytes
  | [] => unreadable
  | b :: rest =>
    if b = byte '\\' then
      match rest with
      | [] => unreadable
      | [_] => unreadable
      | c :: d :: rest' =>
        if c = 13 && d = 10 then literalStringRemainder depth rest'
        else literalStringRemainder depth (d :: rest')
    else if b = byte '(' then do
      checkDepth (depth + 1)
      literalStringRemainder (depth + 1) rest
    else if b = byte ')' then
      if depth - 1 = 0 then .ok rest else literalStringRemainder (depth - 1) rest
    else literalStringRemainder depth rest

/-- `PdfValueParser::hex_string_remainder`. -/
def hexStringRemainder : Bytes → Except PdfError Bytes
  | [] => unreadable
  | b :: rest => if b = byte '>' then .ok rest else hexStringRemainder rest

/-- The loop of `PdfValueParser::name`. -/
def nameRemainder : Bytes → Except PdfError (Bytes × Bytes)
  | [] => .ok ([], [])
  | b :: rest =>
    if !isRegular b then .ok ([], b :: rest)
    else if b = byte '#' then
      match rest with
      | h :: l :: rest' =>
        match hexDigit h, hexDigit l with
        | some high, some low => do
          let (decoded, rest'') ← nameRemainder rest'
          return (UInt8.ofNat (high * 16 + low) :: decoded, rest'')
        | _, _ => unreadable
      | _ => unreadable
    else do
      let (decoded, rest') ← nameRemainder rest
      return (b :: decoded, rest')

/-- `PdfValueParser::name`. -/
def name (rest : Bytes) : Except PdfError (Bytes × Bytes) :=
  match consume (ascii "/") rest with
  | none => unreadable
  | some rest' => nameRemainder rest'

/-- `PdfValueParser::atom`: the token, and what follows. -/
def atom (rest : Bytes) : Except PdfError (Bytes × Bytes) :=
  if (rest.takeWhile isRegular).isEmpty then unreadable
  else .ok (rest.takeWhile isRegular, rest.dropWhile isRegular)

/-- `PdfValueParser::unsigned_digits`. -/
def unsignedDigits (rest : Bytes) : Option (Bytes × Bytes) :=
  let rest := skipTrivia rest
  let digits := rest.takeWhile isAsciiDigit
  let after := rest.dropWhile isAsciiDigit
  if digits.isEmpty || after.head?.any isRegular then none else some (digits, after)

/-- `PdfValueParser::unsigned_u32`. -/
def unsignedU32 (rest : Bytes) : Option (Nat × Bytes) := do
  let (digits, after) ← unsignedDigits rest
  let value ← parseU32 digits
  return (value, after)

/-- `PdfValueParser::unsigned_u16`. -/
def unsignedU16 (rest : Bytes) : Option (Nat × Bytes) := do
  let (digits, after) ← unsignedDigits rest
  let value ← parseU16 digits
  return (value, after)

/-- `PdfValueParser::reference`. -/
def reference (rest : Bytes) : Option (PdfObjectReference × Bytes) := do
  let (number, rest) ← unsignedU32 rest
  let (generation, rest) ← unsignedU16 rest
  let rest ← consumeKeyword (ascii "R") (skipTrivia rest)
  return (⟨number, generation⟩, rest)

/-- `PdfValueParser::consume_reference_tail`: past `G R` after a number, or where it was. -/
def consumeReferenceTail (first rest : Bytes) : Bytes :=
  match parseU32 first with
  | none => rest
  | some _ =>
    match unsignedU16 rest with
    | none => rest
    | some (_, after) => (consumeKeyword (ascii "R") (skipTrivia after)).getD rest

mutual

/-- `PdfValueParser::value`: what is left after the value.  The loops of the parser run on a
    fuel that `parse` sets beyond what the input can use. -/
def value (fuel depth : Nat) (input : Bytes) : Except PdfError Bytes :=
  match fuel with
  | 0 => unreadable
  | fuel + 1 =>
    let rest := skipTrivia input
    match consume (ascii "<<") rest with
    | some rest' => do
      checkDepth (depth + 1)
      let (_, after) ← dictionaryEntries fuel (depth + 1) 0 rest'
      return after
    | none =>
      match consume (ascii "[") rest with
      | some rest' => do
        checkDepth (depth + 1)
        arrayRemainder fuel (depth + 1) rest'
      | none =>
        match consume (ascii "(") rest with
        | some rest' => literalStringRemainder 1 rest'
        | none =>
          match consume (ascii "<") rest with
          | some rest' => hexStringRemainder rest'
          | none =>
            if (ascii "/").isPrefixOf rest then do
              let (_, after) ← name rest
              return after
            else do
              let (first, after) ← atom rest
              return consumeReferenceTail first after

/-- The loop of `PdfValueParser::array_remainder`. -/
def arrayRemainder (fuel depth : Nat) (input : Bytes) : Except PdfError Bytes :=
  match fuel with
  | 0 => unreadable
  | fuel + 1 =>
    let rest := skipTrivia input
    match consume (ascii "]") rest with
    | some rest' => .ok rest'
    | none => do
      let after ← value fuel depth rest
      arrayRemainder fuel depth after

/-- The loop of `PdfValueParser::dictionary`, after the `<<`; offsets are counted from the end of
    a source of `total` bytes. -/
def dictionaryEntries (fuel depth total : Nat) (input : Bytes) :
    Except PdfError (PdfDictionary × Bytes) :=
  match fuel with
  | 0 => unreadable
  | fuel + 1 =>
    let rest := skipTrivia input
    match consume (ascii ">>") rest with
    | some rest' => .ok (⟨[], total - rest.length⟩, rest')
    | none => do
      let (key, rest) ← name rest
      let rest := skipTrivia rest
      let after ← value fuel depth rest
      let (dictionary, rest') ← dictionaryEntries fuel depth total after
      let entry := ⟨key, ⟨total - rest.length, total - after.length⟩⟩
      return (⟨entry :: dictionary.entries, dictionary.closing⟩, rest')

end

/-- Fuel for an input of `length` bytes. -/
def parserFuel (length : Nat) : Nat := 2 * length + 2

/-- `PdfDictionary::parse`. -/
def PdfDictionary.parse (bytes : Bytes) : Except PdfError PdfDictionary :=
  match consume (ascii "<<") (skipTrivia bytes) with
  | none => unreadable
  | some rest => do
    let (dictionary, after) ← dictionaryEntries (parserFuel bytes.length) 1 bytes.length rest
    requireEnd after
    return dictionary

/-- `PdfDictionary::entry`. -/
def PdfDictionary.entry (dictionary : PdfDictionary) (key : Bytes) :
    Except PdfError (Option PdfDictionaryEntry) :=
  match dictionary.entries.filter fun entry => entry.name = key with
  | [] => .ok none
  | [found] => .ok (some found)
  | _ => unreadable

/-- `complete_object_reference`. -/
def completeObjectReference (bytes : Bytes) : Except PdfError (Option PdfObjectReference) :=
  match reference (skipTrivia bytes) with
  | none => .ok none
  | some (found, rest) => do
    requireEnd rest
    return some found

/-- The loop of `complete_reference_array`, one reference a turn. -/
def referencesFuel : Nat → Bytes → Except PdfError (List PdfObjectReference)
  | 0, _ => unreadable
  | fuel + 1, input =>
    let rest := skipTrivia input
    match consume (ascii "]") rest with
    | some rest' => do
      requireEnd rest'
      return []
    | none =>
      match reference rest with
      | none => unreadable
      | some (found, after) => do
        let others ← referencesFuel fuel after
        return found :: others

/-- `complete_reference_array`. -/
def completeReferenceArray (bytes : Bytes) : Except PdfError (List PdfObjectReference) :=
  match consume (ascii "[") (skipTrivia bytes) with
  | none => unreadable
  | some rest => referencesFuel (rest.length + 1) rest

end Pdf

end RefineId
