/-
  RefineId.SignatureDictionary — the signature dictionary as it reads back.
  ════════════════════════════════════════════════════════════════════════════

  The texts of `SignatureMetadata` are spliced into the dictionary that `/ByteRange` and
  `/Contents` stand in.  The dictionary is taken apart here as the writer puts it together,
  entry by entry; an entry whose value reads back leaves the next one alone
  (`reads_writtens`).  The signing time is written without the escapes of the other texts.

  Main results:
    • `reads_writtens`             : entries that read back are read one after the other.
    • `intact_iff`                 : when the dictionary holds what was supplied.
    • `prepared_signature_object`  : the object as it stands in a prepared document.
    • `signatureObject_intact_iff` : when the object of a prepared document is intact.
-/
import RefineId.LiteralString
import RefineId.PadesByteRange

namespace RefineId

namespace Pdf

open Lib

/-! ## §1. Values that read back -/

/-- A value is read as it is written, wherever white space follows. -/
def ValueReads (value : Bytes) : Prop :=
  ∀ d rest, isWhitespace d = true → Reads .value 1 (value ++ d :: rest) [] (d :: rest)

/-- A name. -/
theorem name_reads {run : Bytes} (h : ∀ b ∈ run, isRegular b = true ∧ b ≠ byte '#') :
    ValueReads (byte '/' :: run) := by
  intro d rest hd
  exact .name (skipTrivia_cons (by decide) (by decide) _)
    (nameRemainder_run h (whitespace_not_regular hd) rest)

/-- Escaped text in its parentheses. -/
theorem escaped_reads (text : Bytes) : ValueReads (byte '(' :: (escaped text ++ [byte ')'])) := by
  intro d rest _
  have hclosed : literalStringRemainder 1 (byte ')' :: d :: rest) = .ok (d :: rest) :=
    @literal_plain_text 1 [] rfl (d :: rest)
  have hopen : byte '(' :: (escaped text ++ [byte ')']) ++ d :: rest =
      byte '(' :: (escaped text ++ byte ')' :: d :: rest) := by simp
  rw [hopen]
  exact .literal (skipTrivia_cons (by decide) (by decide) _)
    ((literal_escaped 1 text (byte ')') (d :: rest)).trans hclosed)

/-- Plain text in its parentheses. -/
theorem plain_reads {text : Bytes} (h : Plain text) :
    ValueReads (byte '(' :: (text ++ [byte ')'])) := by
  intro d rest _
  have hopen : byte '(' :: (text ++ [byte ')']) ++ d :: rest =
      byte '(' :: (text ++ byte ')' :: d :: rest) := by simp
  rw [hopen]
  exact .literal (skipTrivia_cons (by decide) (by decide) _) (literal_plain_text h (d :: rest))

theorem hexStringRemainder_zeros (n : Nat) (rest : Bytes) :
    hexStringRemainder (List.replicate n (byte '0') ++ byte '>' :: rest) = .ok rest := by
  induction n with
  | zero => rw [List.replicate_zero, List.nil_append, hexStringRemainder, if_pos rfl]
  | succ n ih =>
    rw [List.replicate_succ, List.cons_append, hexStringRemainder, if_neg (by decide), ih]

/-- The hole of the signature. -/
def zeroHole (capacity : Nat) : Bytes :=
  ascii "<" ++ List.replicate (capacity * 2) (byte '0') ++ ascii ">"

theorem zeroHole_reads (capacity : Nat) : ValueReads (zeroHole capacity) := by
  intro d rest _
  have hopen : zeroHole capacity ++ d :: rest =
      byte '<' :: (List.replicate (capacity * 2) (byte '0') ++ byte '>' :: d :: rest) := by
    simp [zeroHole, ascii, byte]
  rw [hopen]
  refine .hex (skipTrivia_cons (by decide) (by decide) _) ?_ (hexStringRemainder_zeros _ _)
  cases capacity * 2 with
  | zero => simp [byte]
  | succ n => simp [List.replicate_succ, byte]

/-! ## §2. The array of the numbers -/

/-- Blanks before a number are trivia. -/
theorem skipTrivia_writtenField (value : Nat) (rest : Bytes) :
    skipTrivia (writtenField value ++ rest) = decimal value ++ rest := by
  obtain ⟨b, w, hw⟩ := List.exists_cons_of_ne_nil (decimal_ne_nil value)
  have hb : isAsciiDigit b = true := decimal_digits (hw ▸ List.mem_cons_self)
  have hblanks : ∀ n, skipTrivia (List.replicate n 32 ++ (decimal value ++ rest)) =
      decimal value ++ rest := by
    intro n
    induction n with
    | zero =>
      rw [List.replicate_zero, List.nil_append, hw, List.cons_append]
      exact skipTrivia_regular (digit_regular hb) _
    | succ n ih =>
      rw [List.replicate_succ, List.cons_append]
      exact ih
  rw [writtenField, rightAligned, List.cons_append, List.append_assoc]
  exact hblanks _

/-- What follows a number in the array. -/
def fieldsTail (values : List Nat) (rest : Bytes) : Bytes :=
  values.flatMap writtenField ++ 32 :: byte ']' :: rest

theorem fieldsTail_cons (value : Nat) (values : List Nat) (rest : Bytes) :
    fieldsTail (value :: values) rest = writtenField value ++ fieldsTail values rest := by
  rw [fieldsTail, List.flatMap_cons, List.append_assoc]
  rfl

/-- It starts with a blank. -/
theorem fieldsTail_blank (values : List Nat) (rest : Bytes) :
    ∃ more, fieldsTail values rest = 32 :: more := by
  cases values with
  | nil => exact ⟨_, rfl⟩
  | cons value values => exact ⟨_, by rw [fieldsTail_cons, writtenField, List.cons_append]⟩

theorem skipTrivia_fieldsTail_nil (rest : Bytes) :
    skipTrivia (fieldsTail [] rest) = byte ']' :: rest := by
  show skipTrivia (byte ']' :: rest) = _
  exact skipTrivia_cons (by decide) (by decide) rest

/-- No number of the array is read as a reference: no `R` follows. -/
theorem referenceTail_fields (values : List Nat) (rest : Bytes) :
    referenceTail (fieldsTail values rest) = none := by
  -- a digit or the bracket comes first, never the keyword
  have hkeyword : ∀ values, consumeKeyword (ascii "R") (skipTrivia (fieldsTail values rest)) = none := by
    intro values
    rw [Option.eq_none_iff_forall_ne_some]
    intro r hr
    obtain ⟨heq, -⟩ := consumeKeyword_eq_some.mp hr
    cases values with
    | nil =>
      rw [skipTrivia_fieldsTail_nil] at heq
      exact absurd (List.cons.inj heq).1 (by decide)
    | cons value values =>
      obtain ⟨b, w, hw⟩ := List.exists_cons_of_ne_nil (decimal_ne_nil value)
      have hb : isAsciiDigit b = true := decimal_digits (hw ▸ List.mem_cons_self)
      rw [fieldsTail_cons, skipTrivia_writtenField, hw] at heq
      rw [(List.cons.inj heq).1] at hb
      exact absurd hb (by decide)
  rw [referenceTail_eq, tailAt]
  cases values with
  | nil =>
    rw [skipTrivia_fieldsTail_nil]
    rfl
  | cons value values =>
    obtain ⟨more, hmore⟩ := fieldsTail_blank values rest
    obtain ⟨h1, h2⟩ := @run_split isAsciiDigit (decimal value) (fieldsTail values rest)
      (fun b hb => decimal_digits hb) (by rw [hmore]; rfl)
    have hdigits : digitsAt (decimal value ++ fieldsTail values rest) =
        some (decimal value, fieldsTail values rest) := by
      rw [digitsAt, h1, h2, if_neg]
      simp only [Bool.or_eq_true, not_or, Bool.not_eq_true]
      exact ⟨by simp [decimal_ne_nil], by rw [hmore]; rfl⟩
    rw [fieldsTail_cons, skipTrivia_writtenField, hdigits, Option.bind_some]
    cases parseU16 (decimal value) with
    | none => rfl
    | some k => exact hkeyword values

/-- One number of the array. -/
theorem reads_number (depth value : Nat) (values : List Nat) (rest : Bytes) :
    Reads .value depth (decimal value ++ fieldsTail values rest) [] (fieldsTail values rest) := by
  obtain ⟨b, w, hw⟩ := List.exists_cons_of_ne_nil (decimal_ne_nil value)
  have hb : isRegular b = true := digit_regular (decimal_digits (hw ▸ List.mem_cons_self))
  obtain ⟨more, hmore⟩ := fieldsTail_blank values rest
  obtain ⟨h1, h2⟩ := @run_split isRegular (decimal value) (fieldsTail values rest)
    (fun b hb => digit_regular (decimal_digits hb)) (by rw [hmore]; rfl)
  have hatom : Pdf.atom (skipTrivia (decimal value ++ fieldsTail values rest)) =
      .ok (decimal value, fieldsTail values rest) := by
    rw [hw, List.cons_append] at h1 h2 ⊢
    rw [skipTrivia_regular hb, atom_cons hb, h1, h2]
  have hread := @Reads.atom depth _ _ _ hatom
  rw [consumeReferenceTail_eq, referenceTail_fields] at hread
  simpa using hread

theorem reads_fields (depth : Nat) (values : List Nat) (rest : Bytes) :
    ∃ members, Reads .items depth (fieldsTail values rest) members rest := by
  induction values with
  | nil => exact ⟨[], .itemsEnd (skipTrivia_fieldsTail_nil rest)⟩
  | cons value values ih =>
    obtain ⟨members, hmembers⟩ := ih
    have hskip : skipTrivia (fieldsTail (value :: values) rest) =
        decimal value ++ fieldsTail values rest := by
      rw [fieldsTail_cons, skipTrivia_writtenField]
    have hnumber := reads_number depth value values rest
    rw [← hskip] at hnumber
    exact ⟨_, .item hnumber hmembers⟩

/-- The numbers of a signature as they are written. -/
def writtenRange (range : ByteRange) : Bytes :=
  byte '[' :: (range.toList.flatMap writtenField ++ ascii " ]")

theorem writtenRange_reads (range : ByteRange) : ValueReads (writtenRange range) := by
  intro d rest _
  obtain ⟨members, hmembers⟩ := reads_fields 2 range.toList (d :: rest)
  have hopen : writtenRange range ++ d :: rest = byte '[' :: fieldsTail range.toList (d :: rest) := by
    rw [writtenRange, fieldsTail, List.cons_append, List.append_assoc]
    rfl
  rw [hopen]
  exact .array (skipTrivia_cons (by decide) (by decide) _) (by decide) hmembers

/-! ## §3. Entries as they are written -/

/-- An entry as the writer puts it: the byte before its key, its key and its value. -/
structure Written where
  gap : UInt8
  key : Bytes
  value : Bytes
  deriving Repr, DecidableEq

/-- Its bytes. -/
def Written.text (w : Written) : Bytes := w.gap :: byte '/' :: (w.key ++ 32 :: w.value)

/-- An entry whose key is read, and whose value begins where it is written. -/
structure Written.Framed (w : Written) : Prop where
  gap : isWhitespace w.gap = true
  key : ∀ b ∈ w.key, isRegular b = true ∧ b ≠ byte '#'
  begins : ∃ b rest, w.value = b :: rest ∧ isWhitespace b = false ∧ b ≠ byte '%'

/-- An entry whose value reads back as well. -/
structure Written.Sound (w : Written) : Prop extends Written.Framed w where
  reads : ValueReads w.value

section framed
variable {w : Written} (hw : w.Framed)
include hw

theorem Written.Framed.skipTrivia_text (rest : Bytes) :
    skipTrivia (w.text ++ rest) = byte '/' :: (w.key ++ 32 :: (w.value ++ rest)) := by
  rw [Written.text, List.cons_append, skipTrivia_space hw.gap, List.cons_append, List.append_assoc,
    List.cons_append]
  exact skipTrivia_cons (by decide) (by decide) _

theorem Written.Framed.name_text (rest : Bytes) :
    Pdf.name (skipTrivia (w.text ++ rest)) = .ok (w.key, 32 :: (w.value ++ rest)) := by
  rw [hw.skipTrivia_text, name_cons]
  exact nameRemainder_run hw.key (by decide) _

theorem Written.Framed.skipTrivia_value (rest : Bytes) :
    skipTrivia (32 :: (w.value ++ rest)) = w.value ++ rest := by
  obtain ⟨b, more, hvalue, hspace, hcomment⟩ := hw.begins
  rw [skipTrivia_space (by decide), hvalue]
  exact skipTrivia_cons hspace hcomment _

/-- **An entry is read** when its value and what follows it are. -/
theorem Written.Framed.reads_entry {rest mid after : Bytes} {members : List Member}
    (hvalue : Reads .value 1 (w.value ++ rest) [] mid) (hrest : Reads .entries 1 mid members after) :
    Reads .entries 1 (w.text ++ rest) (⟨w.key, w.value ++ rest, mid⟩ :: members) after := by
  have hskip := hw.skipTrivia_value rest
  rw [← hskip] at hvalue ⊢
  exact .entry (hw.name_text rest) hvalue hrest

/-- Nothing else is read there. -/
theorem Written.Framed.entry_of_reads {rest after : Bytes} {members : List Member}
    (h : Reads .entries 1 (w.text ++ rest) members after) :
    ∃ mid others, members = ⟨w.key, w.value ++ rest, mid⟩ :: others ∧
      Reads .value 1 (w.value ++ rest) [] mid ∧ Reads .entries 1 mid others after := by
  generalize hinput : w.text ++ rest = input at h
  cases h with
  | entriesEnd hend =>
    rw [← hinput, hw.skipTrivia_text] at hend
    exact absurd (List.cons.inj hend).1 (by decide)
  | entry hname hvalue hentries =>
    rw [← hinput, hw.name_text] at hname
    obtain ⟨rfl, rfl⟩ := Prod.mk.inj (Except.ok.inj hname)
    rw [hw.skipTrivia_value] at hvalue ⊢
    exact ⟨_, _, rfl, hvalue, hentries⟩

end framed

/-- The members that entries become, before `rest`. -/
def writtenMembers (rest : Bytes) : List Written → List Member
  | [] => []
  | w :: ws => ⟨w.key, w.value ++ (ws.flatMap Written.text ++ rest), ws.flatMap Written.text ++ rest⟩ ::
    writtenMembers rest ws

theorem writtenMembers_pairs (rest : Bytes) (ws : List Written) :
    (writtenMembers rest ws).map (fun m => (m.key, m.text)) = ws.map fun w => (w.key, w.value) := by
  induction ws with
  | nil => rfl
  | cons w ws ih =>
    rw [writtenMembers, List.map_cons, List.map_cons, ih]
    simp [Member.text]

/-- White space stands before every entry, and behind the last. -/
theorem writtens_blank {ws : List Written} (hws : ∀ w ∈ ws, w.Framed) {rest : Bytes}
    (hrest : ∃ d more, rest = d :: more ∧ isWhitespace d = true) :
    ∃ d more, ws.flatMap Written.text ++ rest = d :: more ∧ isWhitespace d = true := by
  cases ws with
  | nil => exact hrest
  | cons w ws =>
    rw [List.flatMap_cons, Written.text, List.cons_append, List.cons_append]
    exact ⟨w.gap, _, rfl, (hws w List.mem_cons_self).gap⟩

/-- **Entries that read back** are read one after the other, and leave what follows. -/
theorem reads_writtens {ws : List Written} (hws : ∀ w ∈ ws, w.Sound) {rest after : Bytes}
    (hrest : ∃ d more, rest = d :: more ∧ isWhitespace d = true) {members : List Member} :
    Reads .entries 1 (ws.flatMap Written.text ++ rest) members after ↔
      ∃ others, members = writtenMembers rest ws ++ others ∧ Reads .entries 1 rest others after := by
  induction ws generalizing members with
  | nil => exact ⟨fun h => ⟨members, rfl, h⟩, fun ⟨_, heq, h⟩ => heq ▸ h⟩
  | cons w ws ih =>
    have hw := hws w List.mem_cons_self
    have hsound : ∀ w ∈ ws, w.Sound := fun v hv => hws v (List.mem_cons_of_mem w hv)
    obtain ⟨d, more, hnext, hd⟩ := writtens_blank (fun v hv => (hsound v hv).toFramed) hrest
    have hvalue : Reads .value 1 (w.value ++ (ws.flatMap Written.text ++ rest)) []
        (ws.flatMap Written.text ++ rest) := by
      rw [hnext]
      exact hw.reads d more hd
    rw [List.flatMap_cons, List.append_assoc]
    constructor
    · intro h
      obtain ⟨mid, others, rfl, hmid, hothers⟩ := hw.toFramed.entry_of_reads h
      obtain rfl := hmid.after_unique hvalue
      obtain ⟨left, rfl, hleft⟩ := (ih hsound).mp hothers
      exact ⟨left, rfl, hleft⟩
    · intro hx
      obtain ⟨others, rfl, hothers⟩ := hx
      exact hw.toFramed.reads_entry hvalue ((ih hsound).mpr ⟨others, rfl, hothers⟩)

/-! ## §4. Dictionaries as they are written -/

/-- A dictionary of such entries. -/
def dictionaryText (ws : List Written) : Bytes :=
  ascii "<<" ++ ws.flatMap Written.text ++ ascii "\n>>"

theorem closing_blank : ∃ d more, ascii "\n>>" = d :: more ∧ isWhitespace d = true :=
  ⟨10, ascii ">>", rfl, rfl⟩

theorem reads_closing : Reads .entries 1 (ascii "\n>>") [] [] := .entriesEnd rfl

/-- **What a written dictionary is parsed as.** -/
theorem parse_dictionaryText {ws : List Written} {dictionary : PdfDictionary}
    (h : PdfDictionary.parse (dictionaryText ws) = .ok dictionary) :
    ∃ members after, Reads .entries 1 (ws.flatMap Written.text ++ ascii "\n>>") members after ∧
      dictionary.pairs (dictionaryText ws) = members.map fun m => (m.key, m.text) := by
  obtain ⟨rest, members, after, hopen, hreads, -, rfl⟩ := parse_iff.mp h
  have hskip : skipTrivia (dictionaryText ws) =
      byte '<' :: byte '<' :: (ws.flatMap Written.text ++ ascii "\n>>") :=
    skipTrivia_cons (by decide) (by decide) _
  have hrest : rest = ws.flatMap Written.text ++ ascii "\n>>" := by
    rw [hskip] at hopen
    exact (List.cons.inj (List.cons.inj hopen).2).2.symm
  subst hrest
  exact ⟨members, after, hreads, pairs_of_members hopen hreads⟩

/-- **Entries that read back make a dictionary** with their keys and values. -/
theorem dictionaryText_pairs {ws : List Written} (hws : ∀ w ∈ ws, w.Sound) :
    ∃ dictionary, PdfDictionary.parse (dictionaryText ws) = .ok dictionary ∧
      dictionary.pairs (dictionaryText ws) = ws.map fun w => (w.key, w.value) := by
  have hreads := (reads_writtens hws closing_blank).mpr ⟨[], rfl, reads_closing⟩
  have hopen : skipTrivia (dictionaryText ws) =
      byte '<' :: byte '<' :: (ws.flatMap Written.text ++ ascii "\n>>") :=
    skipTrivia_cons (by decide) (by decide) _
  refine ⟨_, parse_iff.mpr ⟨_, _, _, hopen, hreads, rfl, rfl⟩, ?_⟩
  rw [pairs_of_members hopen hreads, List.append_nil, writtenMembers_pairs]

/-- **Up to entries that need not read back** the values are those written. -/
theorem pairs_before {ws ws' : List Written} {dictionary : PdfDictionary}
    (hws : ∀ w ∈ ws, w.Sound) (hws' : ∀ w ∈ ws', w.Framed)
    (h : PdfDictionary.parse (dictionaryText (ws ++ ws')) = .ok dictionary) :
    ∃ others after, Reads .entries 1 (ws'.flatMap Written.text ++ ascii "\n>>") others after ∧
      dictionary.pairs (dictionaryText (ws ++ ws')) =
        (ws.map fun w => (w.key, w.value)) ++ others.map fun m => (m.key, m.text) := by
  obtain ⟨members, after, hreads, hpairs⟩ := parse_dictionaryText h
  rw [List.flatMap_append, List.append_assoc] at hreads
  obtain ⟨others, rfl, hothers⟩ :=
    (reads_writtens hws (writtens_blank hws' closing_blank)).mp hreads
  exact ⟨others, after, hothers, by rw [hpairs, List.map_append, writtenMembers_pairs]⟩

/-- What `PdfDictionary::entry` finds is the only value under the key. -/
theorem entry_value {dictionary : PdfDictionary} {bytes key value : Bytes}
    {entry : PdfDictionaryEntry} (h : dictionary.entry key = .ok (some entry))
    (hmem : (key, value) ∈ dictionary.pairs bytes) : entry.value.of bytes = value := by
  obtain ⟨other, hother, heq⟩ := List.mem_map.mp hmem
  obtain ⟨hname, hvalue⟩ := Prod.mk.inj heq
  have hfilter : other ∈ dictionary.entries.filter fun entry => entry.name = key :=
    List.mem_filter.mpr ⟨hother, by simpa using hname⟩
  unfold PdfDictionary.entry at h
  split at h
  · exact absurd h (by simp)
  next found hfound =>
    rw [hfound, List.mem_singleton] at hfilter
    obtain rfl : found = entry := by simpa using h
    rw [← hfilter]
    exact hvalue
  · exact absurd h (by simp [unreadable])

/-- A key that stands once is found. -/
theorem entry_of_pairs {dictionary : PdfDictionary} {bytes key value : Bytes}
    (hnodup : ((dictionary.pairs bytes).map Prod.fst).Nodup)
    (hmem : (key, value) ∈ dictionary.pairs bytes) :
    ∃ entry, dictionary.entry key = .ok (some entry) ∧ entry.value.of bytes = value := by
  obtain ⟨entry, hentry, heq⟩ := List.mem_map.mp hmem
  obtain ⟨hname, hvalue⟩ := Prod.mk.inj heq
  have hnames : (dictionary.entries.map (·.name)).Nodup := by
    rw [PdfDictionary.pairs, List.map_map] at hnodup
    exact hnodup
  have hfilter : dictionary.entries.filter (fun entry => entry.name = key) = [entry] := by
    obtain ⟨before, after, hsplit⟩ := List.append_of_mem hentry
    rw [hsplit, List.map_append, List.map_cons] at hnames
    obtain ⟨-, hafter, hbefore⟩ := List.nodup_append.mp hnames
    have hnone : ∀ other ∈ before ++ after, ¬ other.name = key := by
      intro other hother hkey
      have heq : other.name = entry.name := hkey.trans hname.symm
      rcases List.mem_append.mp hother with hother | hother
      · exact hbefore _ (List.mem_map_of_mem hother) _ List.mem_cons_self heq
      · exact (List.nodup_cons.mp hafter).1 (heq ▸ List.mem_map_of_mem hother)
    rw [hsplit, List.filter_append, List.filter_cons_of_pos (by simpa using hname),
      List.filter_eq_nil_iff.mpr fun other hother => by
        simpa using hnone other (List.mem_append_left _ hother),
      List.filter_eq_nil_iff.mpr fun other hother => by
        simpa using hnone other (List.mem_append_right _ hother), List.nil_append]
  exact ⟨entry, by rw [PdfDictionary.entry, hfilter], hvalue⟩

/-! ## §5. The signature dictionary -/

/-- The texts that are escaped, under their keys. -/
def SignatureMetadata.escapedTexts (metadata : SignatureMetadata) : List (Bytes × Option Text) :=
  [(ascii "Reason", metadata.reason), (ascii "Location", metadata.location),
    (ascii "ContactInfo", metadata.contact), (ascii "Name", metadata.name)]

/-- The text that is not. -/
def SignatureMetadata.plainTexts (metadata : SignatureMetadata) : List (Bytes × Option Text) :=
  [(ascii "M", metadata.signingTime)]

/-- All texts. -/
def SignatureMetadata.texts (metadata : SignatureMetadata) : List (Bytes × Option Text) :=
  metadata.escapedTexts ++ metadata.plainTexts

/-- The keys of the texts that were supplied. -/
def suppliedKeys (texts : List (Bytes × Option Text)) : List Bytes :=
  (texts.filter fun text => text.2.isSome).map Prod.fst

/-- **The expected keys.** -/
def SignatureMetadata.keys (metadata : SignatureMetadata) : List Bytes :=
  [ascii "Type", ascii "Filter", ascii "SubFilter"] ++ suppliedKeys metadata.texts ++
    [ascii "ByteRange", ascii "Contents"]

/-- A literal string. -/
def literal (contents : Bytes) : Bytes := byte '(' :: (contents ++ [byte ')'])

/-- The entries of the supplied texts. -/
def textEntries (write : Bytes → Bytes) (texts : List (Bytes × Option Text)) : List Written :=
  texts.filterMap fun text => text.2.map fun value =>
    ⟨10, text.1, literal (write (utf8Encode value))⟩

/-- The entries before the texts. -/
def typeEntries : List Written :=
  [⟨32, ascii "Type", ascii "/Sig"⟩, ⟨32, ascii "Filter", ascii "/Adobe.PPKLite"⟩,
    ⟨32, ascii "SubFilter", ascii "/ETSI.CAdES.detached"⟩]

/-- The entries behind them. -/
def holeEntries (range : ByteRange) (capacity : Nat) : List Written :=
  [⟨10, ascii "ByteRange", writtenRange range⟩, ⟨10, ascii "Contents", zeroHole capacity⟩]

/-- **The signature dictionary**, with its numbers written and its hole empty. -/
def signatureBody (metadata : SignatureMetadata) (range : ByteRange) (capacity : Nat) : Bytes :=
  dictionaryText (typeEntries ++ textEntries escaped metadata.escapedTexts ++
    (textEntries id metadata.plainTexts ++ holeEntries range capacity))

theorem typeEntries_sound : ∀ w ∈ typeEntries, w.Sound := by
  have hname : ∀ run : Bytes, (∀ b ∈ run, isRegular b = true ∧ b ≠ byte '#') →
      ∀ key : Bytes, (∀ b ∈ key, isRegular b = true ∧ b ≠ byte '#') →
      (⟨32, key, byte '/' :: run⟩ : Written).Sound := by
    intro run hrun key hkey
    exact ⟨⟨rfl, hkey, ⟨_, _, rfl, rfl, by decide⟩⟩, name_reads hrun⟩
  intro w hw
  simp only [typeEntries, List.mem_cons, List.not_mem_nil, or_false] at hw
  obtain rfl | rfl | rfl := hw
  · exact hname (ascii "Sig") (by rw [ascii_ofList]; decide +kernel) _
      (by rw [ascii_ofList]; decide +kernel)
  · exact hname (ascii "Adobe.PPKLite") (by rw [ascii_ofList]; decide +kernel) _
      (by rw [ascii_ofList]; decide +kernel)
  · exact hname (ascii "ETSI.CAdES.detached") (by rw [ascii_ofList]; decide +kernel) _
      (by rw [ascii_ofList]; decide +kernel)

theorem holeEntries_sound (range : ByteRange) (capacity : Nat) :
    ∀ w ∈ holeEntries range capacity, w.Sound := by
  have hrange : ∀ b ∈ ascii "ByteRange", isRegular b = true ∧ b ≠ byte '#' := by
    rw [ascii_ofList]
    decide +kernel
  have hcontents : ∀ b ∈ ascii "Contents", isRegular b = true ∧ b ≠ byte '#' := by
    rw [ascii_ofList]
    decide +kernel
  intro w hw
  simp only [holeEntries, List.mem_cons, List.not_mem_nil, or_false] at hw
  obtain rfl | rfl := hw
  · exact ⟨⟨rfl, hrange, ⟨_, _, rfl, rfl, by decide⟩⟩, writtenRange_reads range⟩
  · exact ⟨⟨rfl, hcontents, ⟨_, _, rfl, rfl, by decide⟩⟩, zeroHole_reads capacity⟩

theorem mem_textEntries {write : Bytes → Bytes} {texts : List (Bytes × Option Text)} {w : Written} :
    w ∈ textEntries write texts ↔ ∃ key text, (key, some text) ∈ texts ∧
      w = ⟨10, key, literal (write (utf8Encode text))⟩ := by
  simp only [textEntries, List.mem_filterMap, Prod.exists, Option.map_eq_some_iff]
  constructor
  · intro hx
    obtain ⟨key, _, hmem, text, rfl, rfl⟩ := hx
    exact ⟨key, text, hmem, rfl⟩
  · intro hx
    obtain ⟨key, text, hmem, rfl⟩ := hx
    exact ⟨key, some text, hmem, text, rfl, rfl⟩

theorem textEntries_keys (write : Bytes → Bytes) (texts : List (Bytes × Option Text)) :
    (textEntries write texts).map Written.key = suppliedKeys texts := by
  induction texts with
  | nil => rfl
  | cons text texts ih =>
    obtain ⟨key, text⟩ := text
    cases text with
    | none => exact ih
    | some text => exact congrArg (key :: ·) ih

/-- The keys of the texts. -/
def textKeys : List Bytes :=
  [ascii "Reason", ascii "Location", ascii "ContactInfo", ascii "Name", ascii "M"]

theorem mem_textKeys {metadata : SignatureMetadata} {key : Bytes} {text : Option Text}
    (h : (key, text) ∈ metadata.texts) : key ∈ textKeys :=
  List.mem_map_of_mem (f := Prod.fst) h

theorem textEntries_framed {write : Bytes → Bytes} {metadata : SignatureMetadata}
    {texts : List (Bytes × Option Text)} (htexts : texts ⊆ metadata.texts) :
    ∀ w ∈ textEntries write texts, w.Framed := by
  intro w hw
  obtain ⟨key, text, hmem, rfl⟩ := mem_textEntries.mp hw
  have hkeys : ∀ key ∈ textKeys, ∀ b ∈ key, isRegular b = true ∧ b ≠ byte '#' := by
    rw [textKeys, ascii_ofList, ascii_ofList, ascii_ofList, ascii_ofList, ascii_ofList]
    decide +kernel
  exact ⟨rfl, hkeys key (mem_textKeys (htexts hmem)), ⟨_, _, rfl, rfl, by decide⟩⟩

theorem escapedEntries_sound (metadata : SignatureMetadata) :
    ∀ w ∈ textEntries escaped metadata.escapedTexts, w.Sound := by
  intro w hw
  have hframed := textEntries_framed (List.subset_append_left _ _) w hw
  obtain ⟨key, text, -, rfl⟩ := mem_textEntries.mp hw
  exact ⟨hframed, escaped_reads _⟩

theorem plainEntries_sound {metadata : SignatureMetadata}
    (h : ∀ time, metadata.signingTime = some time → Plain (utf8Encode time)) :
    ∀ w ∈ textEntries id metadata.plainTexts, w.Sound := by
  intro w hw
  have hframed := textEntries_framed (List.subset_append_right _ _) w hw
  obtain ⟨key, text, hmem, rfl⟩ := mem_textEntries.mp hw
  have htime : metadata.signingTime = some text :=
    (Prod.mk.inj (List.mem_singleton.mp hmem)).2.symm
  exact ⟨hframed, plain_reads (h text htime)⟩

/-! ## §6. What was supplied is what is read -/

/-- **The dictionary holds what was supplied**: it is one dictionary with the expected keys,
    each once, every text is decoded to its own bytes, and the hole is whole. -/
structure Intact (metadata : SignatureMetadata) (capacity : Nat) (body : Bytes)
    (dictionary : PdfDictionary) : Prop where
  parsed : PdfDictionary.parse body = .ok dictionary
  keys : (dictionary.entries.map (·.name)).Perm metadata.keys
  texts : ∀ key text, (key, some text) ∈ metadata.texts → ∃ entry contents,
    dictionary.entry key = .ok (some entry) ∧ entry.value.of body = literal contents ∧
      decodeLiteralString contents = .ok (utf8Encode text)
  hole : ∃ entry, dictionary.entry (ascii "Contents") = .ok (some entry) ∧
    entry.value.of body = zeroHole capacity

/-- Texts that can be supplied: what is escaped is decoded within the limit, and what is not
    escaped is plain. -/
structure SignatureMetadata.Suppliable (metadata : SignatureMetadata) : Prop where
  escaped : ∀ key text, (key, some text) ∈ metadata.escapedTexts → EscapesWithin (utf8Encode text)
  plain : ∀ time, metadata.signingTime = some time → Plain (utf8Encode time)

theorem literal_injective {a b : Bytes} (h : literal a = literal b) : a = b :=
  List.append_cancel_right (List.cons.inj h).2

/-- No key stands twice. -/
theorem keys_nodup (metadata : SignatureMetadata) : metadata.keys.Nodup := by
  have hsub : (suppliedKeys metadata.texts).Sublist textKeys := List.filter_sublist.map Prod.fst
  have hall : ([ascii "Type", ascii "Filter", ascii "SubFilter"] ++ textKeys ++
      [ascii "ByteRange", ascii "Contents"]).Nodup := by decide
  exact hall.sublist (((List.Sublist.refl _).append hsub).append (List.Sublist.refl _))

/-- A literal string is scanned past its first parenthesis. -/
theorem scan_of_reads {depth : Nat} {rest mid : Bytes}
    (h : Reads .value depth (byte '(' :: rest) [] mid) : literalStringRemainder 1 rest = .ok mid := by
  have hskip : skipTrivia (byte '(' :: rest) = byte '(' :: rest :=
    skipTrivia_cons (by decide) (by decide) rest
  have hother : ∀ {b : UInt8} {more : Bytes}, skipTrivia (byte '(' :: rest) = b :: more →
      b = byte '(' ∧ more = rest := by
    intro b more heq
    rw [hskip] at heq
    obtain ⟨hb, hmore⟩ := List.cons.inj heq
    exact ⟨hb.symm, hmore.symm⟩
  cases h with
  | dictionary hopen => exact absurd (hother hopen).1 (by decide)
  | array hopen => exact absurd (hother hopen).1 (by decide)
  | literal hopen h => exact (hother hopen).2 ▸ h
  | hex hopen => exact absurd (hother hopen).1 (by decide)
  | name hopen => exact absurd (hother hopen).1 (by decide)
  | atom h => exact absurd hskip (atom_head h (by decide) rest)

/-- Nothing behind the texts closes a string. -/
theorem holeEntries_unclosed (range : ByteRange) (capacity : Nat) :
    byte ')' ∉ (holeEntries range capacity).flatMap Written.text ++ ascii "\n>>" := by
  have hfields : ∀ values : List Nat, byte ')' ∉ values.flatMap writtenField := by
    intro values hmem
    obtain ⟨value, -, hmem⟩ := List.mem_flatMap.mp hmem
    simp only [writtenField, rightAligned, List.mem_cons, List.mem_append, List.mem_replicate] at hmem
    obtain hmem | ⟨-, hmem⟩ | hmem := hmem
    · exact absurd hmem (by decide)
    · exact absurd hmem (by decide)
    · exact absurd (decimal_digits hmem) (by decide)
  have hzeros : byte ')' ∉ List.replicate (capacity * 2) (byte '0') := by
    rw [List.mem_replicate]
    exact fun h => absurd h.2 (by decide)
  have hfixed : byte ')' ∉ ascii "ByteRange" ∧ byte ')' ∉ ascii "Contents" ∧
      byte ')' ∉ ascii " ]" ∧ byte ')' ∉ ascii "<" ∧ byte ')' ∉ ascii ">" ∧
      byte ')' ∉ ascii "\n>>" := by decide
  obtain ⟨h1, h2, h3, h4, h5, h6⟩ := hfixed
  have hne : byte ')' ≠ 10 ∧ byte ')' ≠ 32 ∧ byte ')' ≠ byte '/' ∧ byte ')' ≠ byte '[' := by decide
  simp [holeEntries, Written.text, writtenRange, zeroHole, hfields, hzeros, h1, h2, h3, h4, h5, h6,
    hne]

section intact
variable {metadata : SignatureMetadata} {range : ByteRange} {capacity : Nat}

/-- The entries that always read back. -/
theorem typeEntries_escaped_sound :
    ∀ w ∈ typeEntries ++ textEntries escaped metadata.escapedTexts, w.Sound := by
  intro w hw
  rcases List.mem_append.mp hw with hw | hw
  · exact typeEntries_sound w hw
  · exact escapedEntries_sound metadata w hw

theorem plainEntries_framed :
    ∀ w ∈ textEntries id metadata.plainTexts ++ holeEntries range capacity, w.Framed := by
  intro w hw
  rcases List.mem_append.mp hw with hw | hw
  · exact textEntries_framed (List.subset_append_right _ _) w hw
  · exact (holeEntries_sound range capacity w hw).toFramed

/-- An escaped text that is read back has its escapes within the limit. -/
theorem Intact.escaped_within {dictionary : PdfDictionary}
    (h : Intact metadata capacity (signatureBody metadata range capacity) dictionary)
    {key : Bytes} {text : Text} (hmem : (key, some text) ∈ metadata.escapedTexts) :
    EscapesWithin (utf8Encode text) := by
  obtain ⟨others, _, -, hpairs⟩ :=
    pairs_before typeEntries_escaped_sound plainEntries_framed h.parsed
  obtain ⟨entry, contents, hentry, hvalue, hdecoded⟩ :=
    h.texts key text (List.mem_append_left _ hmem)
  have hwritten : (key, literal (escaped (utf8Encode text))) ∈
      dictionary.pairs (signatureBody metadata range capacity) := by
    rw [signatureBody, hpairs]
    have hentries : (⟨10, key, literal (escaped (utf8Encode text))⟩ : Written) ∈
        typeEntries ++ textEntries escaped metadata.escapedTexts :=
      List.mem_append_right _ (mem_textEntries.mpr ⟨key, text, hmem, rfl⟩)
    exact List.mem_append_left _ (List.mem_map_of_mem (f := fun w : Written => (w.key, w.value)) hentries)
  have hsame : literal contents = literal (escaped (utf8Encode text)) :=
    hvalue.symm.trans (entry_value hentry hwritten)
  rw [literal_injective hsame] at hdecoded
  exact (decodeLiteralString_escaped _).mp hdecoded

/-- A signing time that is read back is plain. -/
theorem Intact.time_plain {dictionary : PdfDictionary}
    (h : Intact metadata capacity (signatureBody metadata range capacity) dictionary)
    {time : Text} (htime : metadata.signingTime = some time) : Plain (utf8Encode time) := by
  obtain ⟨others, after, hreads, hpairs⟩ :=
    pairs_before typeEntries_escaped_sound plainEntries_framed h.parsed
  let w : Written := ⟨10, ascii "M", literal (utf8Encode time)⟩
  have hone : textEntries id metadata.plainTexts = [w] := by
    simp [textEntries, SignatureMetadata.plainTexts, htime, w]
  have hw : w.Framed := @plainEntries_framed metadata range capacity w
    (List.mem_append_left _ (hone ▸ List.mem_singleton_self w))
  rw [hone, List.singleton_append, List.flatMap_cons, List.append_assoc] at hreads
  obtain ⟨mid, others, rfl, hvalue, -⟩ := hw.entry_of_reads hreads
  -- the text of the member is the value found under the key
  let read : Member := ⟨w.key, w.value ++
    ((holeEntries range capacity).flatMap Written.text ++ ascii "\n>>"), mid⟩
  have hread : (ascii "M", read.text) ∈ dictionary.pairs (signatureBody metadata range capacity) := by
    rw [signatureBody, hpairs]
    exact List.mem_append_right _ List.mem_cons_self
  obtain ⟨entry, contents, hentry, htext, hdecoded⟩ := h.texts (ascii "M") time
    (List.mem_append_right _ (by rw [← htime]; exact List.mem_singleton_self _))
  have hsame : read.text = literal contents := (entry_value hentry hread).symm.trans htext
  have hwhole : read.start = literal contents ++ mid := by
    rw [← hsame]
    exact read.text_append hvalue.behind.1
  have hbegin : ∀ text rest : Bytes, literal text ++ rest = byte '(' :: (text ++ byte ')' :: rest) := by
    intro text rest
    simp [literal]
  have hscan : byte '(' :: (utf8Encode time ++ byte ')' ::
      ((holeEntries range capacity).flatMap Written.text ++ ascii "\n>>")) =
      byte '(' :: (contents ++ byte ')' :: mid) := by
    rw [← hbegin, ← hbegin]
    exact hwhole
  have hscanned : literalStringRemainder 1 (utf8Encode time ++ byte ')' ::
      ((holeEntries range capacity).flatMap Written.text ++ ascii "\n>>")) = .ok mid := by
    refine @scan_of_reads 1 _ _ ?_
    rw [← hbegin]
    exact hvalue
  exact (plain_of_read (holeEntries_unclosed range capacity) hscanned (List.cons.inj hscan).2
    hdecoded).1

/-- **Texts that can be supplied** make an intact dictionary. -/
theorem intact_of_suppliable (h : metadata.Suppliable) :
    ∃ dictionary, Intact metadata capacity (signatureBody metadata range capacity) dictionary := by
  have hsound : ∀ w ∈ typeEntries ++ textEntries escaped metadata.escapedTexts ++
      (textEntries id metadata.plainTexts ++ holeEntries range capacity), w.Sound := by
    intro w hw
    rcases List.mem_append.mp hw with hw | hw
    · exact typeEntries_escaped_sound w hw
    rcases List.mem_append.mp hw with hw | hw
    · exact plainEntries_sound h.plain w hw
    · exact holeEntries_sound range capacity w hw
  obtain ⟨dictionary, hparse, hpairs⟩ := dictionaryText_pairs hsound
  rw [← signatureBody] at hparse hpairs
  have hkeys : (dictionary.pairs (signatureBody metadata range capacity)).map Prod.fst =
      metadata.keys := by
    rw [hpairs, List.map_map]
    show List.map Written.key _ = _
    simp only [List.map_append, textEntries_keys, SignatureMetadata.keys, SignatureMetadata.texts,
      suppliedKeys, List.filter_append, List.append_assoc]
    rfl
  have hnames : dictionary.entries.map (·.name) = metadata.keys := by
    rw [← hkeys, PdfDictionary.pairs, List.map_map]
    rfl
  have hnodup := keys_nodup metadata
  rw [← hkeys] at hnodup
  have hfound : ∀ w ∈ typeEntries ++ textEntries escaped metadata.escapedTexts ++
      (textEntries id metadata.plainTexts ++ holeEntries range capacity), ∃ entry,
      dictionary.entry w.key = .ok (some entry) ∧
        entry.value.of (signatureBody metadata range capacity) = w.value := by
    intro w hw
    refine entry_of_pairs hnodup ?_
    rw [hpairs]
    exact List.mem_map_of_mem (f := fun w : Written => (w.key, w.value)) hw
  refine ⟨dictionary, hparse, hnames ▸ List.Perm.refl _, ?_, ?_⟩
  · intro key text hmem
    rcases List.mem_append.mp hmem with hmem | hmem
    · obtain ⟨entry, hentry, hvalue⟩ := hfound _ (List.mem_append_left _
        (List.mem_append_right _ (mem_textEntries.mpr ⟨key, text, hmem, rfl⟩)))
      exact ⟨entry, _, hentry, hvalue,
        (decodeLiteralString_escaped _).mpr (h.escaped key text hmem)⟩
    · obtain ⟨entry, hentry, hvalue⟩ := hfound _ (List.mem_append_right _
        (List.mem_append_left _ (mem_textEntries.mpr ⟨key, text, hmem, rfl⟩)))
      have htime : metadata.signingTime = some text :=
        (Prod.mk.inj (List.mem_singleton.mp hmem)).2.symm
      exact ⟨entry, _, hentry, hvalue,
        decodeLiteralString_plain (plainFrom_no_backslash (h.plain text htime))⟩
  · exact hfound ⟨10, ascii "Contents", zeroHole capacity⟩ (List.mem_append_right _
      (List.mem_append_right _ (List.mem_cons_of_mem _ List.mem_cons_self)))

/-- **When the dictionary holds what was supplied.** -/
theorem intact_iff :
    (∃ dictionary, Intact metadata capacity (signatureBody metadata range capacity) dictionary) ↔
      metadata.Suppliable := by
  constructor
  · intro hx
    obtain ⟨dictionary, h⟩ := hx
    exact ⟨fun key text hmem => h.escaped_within hmem, fun time htime => h.time_plain htime⟩
  · exact intact_of_suppliable

end intact

/-! ## §7. The object of a prepared document -/

/-- The line end behind a supplied text is the gap before the next entry. -/
theorem optionalText_entry (key : Bytes) (text : Option Text) (rest : Bytes) :
    10 :: (optionalText (byte '/' :: key) text ++ rest) =
      (textEntries escaped [(key, text)]).flatMap Written.text ++ 10 :: rest := by
  cases text with
  | none => rfl
  | some text => simp [optionalText, textEntries, Written.text, literal, escaped, ascii, byte]

theorem signingTime_entry (key : Bytes) (time : Text) :
    10 :: byte '/' :: (key ++ 32 :: byte '(' :: (utf8Encode time ++ ascii ")\n")) =
      (textEntries id [(key, some time)]).flatMap Written.text ++ [10] := by
  simp [textEntries, Written.text, literal, ascii, byte]

theorem textEntries_append (write : Bytes → Bytes) (texts others : List (Bytes × Option Text)) :
    textEntries write (texts ++ others) = textEntries write texts ++ textEntries write others :=
  List.filterMap_append

/-- The head of the dictionary, entry by entry. -/
theorem dictionaryHead_entries (number : Nat) (metadata : SignatureMetadata) :
    dictionaryHead number .signature metadata =
      decimal number ++ ascii " 0 obj\n" ++ (ascii "<<" ++ typeEntries.flatMap Written.text ++
        (textEntries escaped metadata.escapedTexts).flatMap Written.text ++
        (textEntries id metadata.plainTexts).flatMap Written.text ++ [10]) := by
  have hfixed : ascii " 0 obj\n<< /Type " ++ (ascii "/Sig" ++
      (ascii " /Filter /Adobe.PPKLite /SubFilter " ++ (ascii "/ETSI.CAdES.detached" ++ ascii "\n"))) =
      ascii " 0 obj\n" ++ (ascii "<<" ++ (typeEntries.flatMap Written.text ++ [10])) := by
    decide
  have hline (rest : Bytes) : ascii " 0 obj\n<< /Type " ++ (ascii "/Sig" ++
      (ascii " /Filter /Adobe.PPKLite /SubFilter " ++ (ascii "/ETSI.CAdES.detached" ++
        (ascii "\n" ++ rest)))) =
      ascii " 0 obj\n" ++ (ascii "<<" ++ (typeEntries.flatMap Written.text ++ 10 :: rest)) := by
    simpa only [List.append_assoc, List.singleton_append] using congrArg (· ++ rest) hfixed
  have htexts : textEntries escaped metadata.escapedTexts =
      textEntries escaped [(ascii "Reason", metadata.reason)] ++
        (textEntries escaped [(ascii "Location", metadata.location)] ++
        (textEntries escaped [(ascii "ContactInfo", metadata.contact)] ++
          textEntries escaped [(ascii "Name", metadata.name)])) := by
    simp only [← textEntries_append]
    rfl
  have hreason := optionalText_entry (ascii "Reason") metadata.reason
  have hlocation := optionalText_entry (ascii "Location") metadata.location
  have hcontact := optionalText_entry (ascii "ContactInfo") metadata.contact
  have hname := optionalText_entry (ascii "Name") metadata.name
  rw [show byte '/' :: ascii "Reason" = ascii "/Reason" from rfl] at hreason
  rw [show byte '/' :: ascii "Location" = ascii "/Location" from rfl] at hlocation
  rw [show byte '/' :: ascii "ContactInfo" = ascii "/ContactInfo" from rfl] at hcontact
  rw [show byte '/' :: ascii "Name" = ascii "/Name" from rfl] at hname
  have hplain (rest : Bytes) : ascii "/M (" ++ rest =
    byte '/' :: (ascii "M" ++ 32 :: byte '(' :: rest) := rfl
  rw [dictionaryHead, Reserved.dictionaryHead, SignatureMetadata.plainTexts]
  cases metadata.signingTime with
  | none =>
    simp only [List.append_assoc, List.cons_append, hline, hreason, hlocation, hcontact, hname,
      htexts, List.flatMap_append]
    rfl
  | some time =>
    simp only [List.append_assoc, List.cons_append, hline, hreason, hlocation, hcontact, hname,
      hplain, signingTime_entry, htexts, List.flatMap_append]

/-- **The object of a signature**, its body between `obj` and `endobj`. -/
def signatureObject (number : Nat) (metadata : SignatureMetadata) (range : ByteRange)
    (capacity : Nat) : Bytes :=
  decimal number ++ ascii " 0 obj\n" ++ signatureBody metadata range capacity ++ ascii "\nendobj\n"

theorem signatureObject_patched (number capacity : Nat) (metadata : SignatureMetadata)
    (range : ByteRange) (before more : Bytes) :
    patched (before ++ dictionaryHead number .signature metadata) range capacity
        (ascii "\n>>\nendobj\n" ++ more) =
      before ++ signatureObject number metadata range capacity ++ more := by
  have hrange : ascii "/ByteRange [" = byte '/' :: (ascii "ByteRange" ++ 32 :: byte '[' :: []) := rfl
  have hcontents : contentsKey = ascii " ]" ++ 10 :: byte '/' :: (ascii "Contents" ++ [32]) := rfl
  have hclosing : ascii "\n>>\nendobj\n" = ascii "\n>>" ++ ascii "\nendobj\n" := rfl
  rw [patched, dictionaryHead_entries, signatureObject, signatureBody, dictionaryText, hrange,
    hcontents, hclosing]
  simp only [holeEntries, Written.text, writtenRange, zeroHole, List.flatMap_append,
    List.flatMap_cons, List.flatMap_nil, List.append_assoc, List.cons_append, List.nil_append]

/-- **The object as it stands in a prepared document**, right behind the closed original. -/
theorem prepared_signature_object {D : Drawing} {pdf : Bytes} {metadata : SignatureMetadata}
    {capacity : Nat} {p : Placeholder} (h : prepare D pdf metadata capacity = .ok p) :
    ∃ number more, p.document =
      closedLine pdf ++ signatureObject number metadata p.byteRange capacity ++ more := by
  simp only [prepare, prepareKind, bind_eq_ok] at h
  obtain ⟨draft, hdraft, h⟩ := h
  obtain ⟨number, more, hl⟩ := draftKind_layout hdraft
  rw [finishPlaceholder_layout hl] at h
  split at h
  · injection h with h
    exact ⟨number, more, by rw [← h, ← signatureObject_patched]⟩
  · exact absurd h (by simp)

/-- **The signature object of every prepared document holds what was supplied** exactly when the
    texts can be supplied. -/
theorem signatureObject_intact_iff (D : Drawing) (pdf : Bytes) (metadata : SignatureMetadata)
    (capacity : Nat) (p : Placeholder) (h : prepare D pdf metadata capacity = .ok p) :
    ∃ number more, p.document =
        closedLine pdf ++ signatureObject number metadata p.byteRange capacity ++ more ∧
      ((∃ dictionary, Intact metadata capacity (signatureBody metadata p.byteRange capacity)
        dictionary) ↔ metadata.Suppliable) := by
  obtain ⟨number, more, hdocument⟩ := prepared_signature_object h
  exact ⟨number, more, hdocument, intact_iff⟩

/-- A reason that needs escapes, and a date. -/
def sampleMetadata : SignatureMetadata :=
  { reason := some (chars "a (b) \\"), signingTime := some (chars "D:20260102030405+00'00'") }

theorem sampleMetadata_suppliable : sampleMetadata.Suppliable := by
  refine ⟨?_, ?_⟩
  · intro key text hmem
    simp only [SignatureMetadata.escapedTexts, sampleMetadata, List.mem_cons, Prod.mk.injEq,
      Option.some.injEq, reduceCtorEq, and_false, List.not_mem_nil, or_false] at hmem
    rw [hmem.2]
    decide +kernel
  · intro time htime
    obtain rfl : chars "D:20260102030405+00'00'" = time := Option.some.inj htime
    decide

theorem sampleMetadata_intact : ∃ p, prepare sampleDrawing sampleDocument sampleMetadata 2 = .ok p ∧
    ∃ number more, p.document =
        closedLine sampleDocument ++ signatureObject number sampleMetadata p.byteRange 2 ++ more ∧
      ∃ dictionary, Intact sampleMetadata 2 (signatureBody sampleMetadata p.byteRange 2)
        dictionary := by
  have hreturns : (prepare sampleDrawing sampleDocument sampleMetadata 2).toOption.isSome = true := by
    rw [sampleDocument, ascii_append, ascii_ofList, ascii_ofList, sampleMetadata, chars_ofList, chars_ofList]
    decide +kernel
  obtain ⟨p, hp⟩ := Option.isSome_iff_exists.mp hreturns
  have hok : prepare sampleDrawing sampleDocument sampleMetadata 2 = .ok p := toOption_eq_some.mp hp
  obtain ⟨number, more, hdocument, hiff⟩ :=
    signatureObject_intact_iff sampleDrawing sampleDocument sampleMetadata 2 p hok
  exact ⟨p, hok, number, more, hdocument, hiff.mpr sampleMetadata_suppliable⟩

/-- A signing time that closes its string and opens another. -/
def forgedTime : SignatureMetadata := { signingTime := some (chars ") /Name (forged") }

/-- **Not every signing time can be supplied**: this one adds a `/Name` to the dictionary. -/
theorem forgedTime_not_intact :
    ¬ ∀ D pdf metadata capacity p, prepare D pdf metadata capacity = .ok p →
      ∃ number more, p.document =
          closedLine pdf ++ signatureObject number metadata p.byteRange capacity ++ more ∧
        ∃ dictionary, Intact metadata capacity (signatureBody metadata p.byteRange capacity)
          dictionary := by
  intro hall
  have hreturns : (prepare sampleDrawing sampleDocument forgedTime 2).toOption.isSome = true := by
    rw [sampleDocument, ascii_append, ascii_ofList, ascii_ofList, forgedTime, chars_ofList]
    decide +kernel
  obtain ⟨p, hp⟩ := Option.isSome_iff_exists.mp hreturns
  have hok : prepare sampleDrawing sampleDocument forgedTime 2 = .ok p := toOption_eq_some.mp hp
  obtain ⟨_, _, -, hintact⟩ := hall sampleDrawing sampleDocument forgedTime 2 p hok
  have hplain := (intact_iff.mp hintact).plain _ rfl
  have hnot : ¬ Plain (utf8Encode (chars ") /Name (forged")) := by decide
  exact hnot hplain

end Pdf

end RefineId
