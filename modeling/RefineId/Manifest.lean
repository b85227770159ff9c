/-
  RefineId.Manifest — reading `ASiCManifest.xml`.
  ════════════════════════════════════════════════════════════════════════════

  `parse_manifest` of `crates/refineid-doc-sign/src/asic_verify.rs`: a scan for tags, not
  an XML parser.  A position in the text is what is left of it.

  A reference names its file twice, decoded and as written, and the verifier uses both
  spellings.

  Main results:
    • `nextTag_total`, `reference_total`, `parseManifest_total` : the scan ends on every
      text.
-/
import RefineId.Base64
import RefineId.Cades
import RefineId.Zip
import RefineId.Lib.Search

namespace RefineId

namespace Asic

open Lib Cades

/-! ## §1. Tags -/

/-- `Tag`. -/
structure Tag where
  name : Text
  attrs : Text
  closing : Bool
  deriving Repr, DecidableEq

/-- The tag between `<` and `>`. -/
def tagOf (body : Text) : Option Tag :=
  let (closing, body) := match body with
    | '/' :: rest => (true, rest)
    | _ => (false, body)
  let body := if body.getLast? = some '/' then body.dropLast else body
  let name := body.takeWhile fun c => !isWhitespace c
  let attrs := body.dropWhile fun c => !isWhitespace c
  if name.isEmpty then none else some ⟨name, attrs, closing⟩

/-- Go on after `pat`. -/
def skipPast (pat : String) (text : Text) : Turn Text (Option (Tag × Text)) :=
  match splitOnce (chars pat) text with
  | none => .done none
  | some (_, rest) => .next rest

/-- One turn of `next_tag`: comments, processing instructions and declarations are skipped. -/
def nextTagTurn (text : Text) : Turn Text (Option (Tag × Text)) :=
  match splitOnce ['<'] text with
  | none => .done none
  | some (_, afterOpen) =>
    if (chars "!--").isPrefixOf afterOpen then skipPast "-->" (afterOpen.drop 3)
    else if afterOpen.head? = some '?' then skipPast "?>" afterOpen
    else if afterOpen.head? = some '!' then skipPast ">" afterOpen
    else match splitOnce ['>'] afterOpen with
      | none => .done none
      | some (body, after) => .done ((tagOf body).map fun tag => (tag, after))

/-- `next_tag`: the tag and what follows its `>`. -/
def nextTag (text : Text) : Option (Tag × Text) :=
  (loop nextTagTurn (text.length + 1) text).getD none

/-- `local_name`. -/
def localName (name : Text) : Text := afterLast ':' name

/-- `attr_value`: the first quote style that occurs decides. -/
def attrValue (attrs : Text) (wanted : String) : Option Text :=
  match splitOnce (chars (wanted ++ "=\"")) attrs with
  | some (_, rest) => (splitOnce ['"'] rest).map Prod.fst
  | none =>
    match splitOnce (chars (wanted ++ "='")) attrs with
    | some (_, rest) => (splitOnce ['\''] rest).map Prod.fst
    | none => none

/-! ## §2. Digest methods and names -/

/-- `digest_by_uri`: the algorithm and its label. -/
def digestByUri (uri : Text) : Except DocumentVerifyError (DigestAlgorithm × String) :=
  if uri = chars "http://www.w3.org/2001/04/xmlenc#sha256" then .ok (.sha256, "SHA-256")
  else if uri = chars "http://www.w3.org/2001/04/xmldsig-more#sha384" ||
      uri = chars "http://www.w3.org/2001/04/xmlenc#sha384" then .ok (.sha384, "SHA-384")
  else .error (.manifest ("unsupported digest " ++ String.ofList uri))

/-- A hexadecimal digit. -/
def hexValue (b : UInt8) : Option Nat :=
  if 48 ≤ b && b ≤ 57 then some (b.toNat - 48)
  else if 65 ≤ b && b ≤ 70 then some (b.toNat - 55)
  else if 97 ≤ b && b ≤ 102 then some (b.toNat - 87)
  else none

/-- `u8::from_str_radix` of two octets, which takes a leading `+` too. -/
def hexPair (a b : UInt8) : Option UInt8 := do
  let low ← hexValue b
  if a = 43 then return UInt8.ofNat low
  else
    let high ← hexValue a
    return UInt8.ofNat (16 * high + low)

/-- One turn of the percent decoder: a malformed escape stays literal. -/
def percentStep : Bytes → UInt8 × Option Bytes
  | 37 :: a :: b :: rest =>
    match hexPair a b with
    | some value => (value, some rest)
    | none => (37, some (a :: b :: rest))
  | byte :: rest => (byte, some rest)
  | [] => (0, none)

/-- `decode_uri`. -/
def decodeUri (raw : Text) : Text :=
  let unescaped := replaceAll (chars "&quot;") ['"'] raw
  let unescaped := replaceAll (chars "&apos;") ['\''] unescaped
  let unescaped := replaceAll (chars "&lt;") ['<'] unescaped
  let unescaped := replaceAll (chars "&gt;") ['>'] unescaped
  let unescaped := replaceAll (chars "&amp;") ['&'] unescaped
  fromUtf8Lossy (unfold percentStep (utf8Encode unescaped))

/-! ## §3. References -/

/-- `ManifestRef`. -/
structure ManifestRef where
  uri : Text
  rawUri : Text
  algorithm : DigestAlgorithm
  label : String
  expected : Bytes
  deriving Repr, DecidableEq

/-- What the inner loop has seen: the DigestMethod's algorithm, the DigestValue. -/
structure RefState where
  rest : Text
  algorithm : Option Text
  value : Option Text

/-- One turn of the inner loop, up to the closing DataObjectReference. -/
def refTurn (s : RefState) : Turn RefState (Except DocumentVerifyError RefState) :=
  match nextTag s.rest with
  | none => .done (.ok s)
  | some (inner, rest) =>
    let name := localName inner.name
    if inner.closing && name = chars "DataObjectReference" then .done (.ok { s with rest })
    else if !inner.closing && name = chars "DigestMethod" then
      .next { s with rest, algorithm := attrValue inner.attrs "Algorithm" }
    else if !inner.closing && name = chars "DigestValue" then
      match splitOnce ['<'] rest with
      | none => .done (.error (.manifest "unterminated DigestValue"))
      | some (content, _) => .next { s with rest, value := some (trim content) }
    else .next { s with rest }

/-- The inner loop. -/
def readReference (rest : Text) : Except DocumentVerifyError RefState :=
  (loop refTurn (rest.length + 1) ⟨rest, none, none⟩).getD (.ok ⟨rest, none, none⟩)

/-- The reference of a URI and what the inner loop saw. -/
def buildReference (rawUri : Text) (s : RefState) : Except DocumentVerifyError ManifestRef := do
  let algorithmUri ← okOr (.manifest "reference without DigestMethod") s.algorithm
  let (algorithm, label) ← digestByUri algorithmUri
  let encoded ← okOr (.manifest "reference without DigestValue") s.value
  let expected ← (Base64.decode encoded).mapError fun why => .manifest ("bad DigestValue: " ++ why)
  return ⟨decodeUri rawUri, rawUri, algorithm, label, expected⟩

/-- One DataObjectReference: the reference and what is left. -/
def dataObjectReference (tag : Tag) (rest : Text) :
    Except DocumentVerifyError (ManifestRef × Text) := do
  let rawUri ← okOr (.manifest "reference without URI") (attrValue tag.attrs "URI")
  let s ← readReference rest
  let reference ← buildReference rawUri s
  return (reference, s.rest)

/-! ## §4. The manifest -/

/-- One turn of the outer loop. -/
def manifestTurn (s : Text × List ManifestRef) :
    Turn (Text × List ManifestRef) (Except DocumentVerifyError (List ManifestRef)) :=
  match nextTag s.1 with
  | none => .done (.ok s.2)
  | some (tag, rest) =>
    if tag.closing || localName tag.name ≠ chars "DataObjectReference" then .next (rest, s.2)
    else match dataObjectReference tag rest with
      | .error e => .done (.error e)
      | .ok (reference, rest) => .next (rest, s.2 ++ [reference])

/-- The outer loop. -/
def manifestRefs (text : Text) : Except DocumentVerifyError (List ManifestRef) :=
  (loop manifestTurn (text.length + 1) (text, [])).getD (.ok [])

/-- `parse_manifest`. -/
def parseManifest (xml : Bytes) : Except DocumentVerifyError (List ManifestRef) := do
  let text ← okOr (.manifest "manifest is not UTF-8") (fromUtf8 xml)
  let refs ← manifestRefs text
  ensure (!refs.isEmpty) (.manifest "no DataObjectReference entries")
  return refs

/-! ## §5. The scan ends -/

theorem skipPast_drop {pat : String} {text rest : Text} (h : skipPast pat text = .next rest) :
    rest.length ≤ text.length := by
  unfold skipPast at h
  split at h
  · exact absurd h (by simp)
  next before rest' hs =>
    injection h with h
    have := splitOnce_length hs
    rw [← h]
    omega

theorem nextTagTurn_drop {text rest : Text} (h : nextTagTurn text = .next rest) :
    rest.length < text.length := by
  unfold nextTagTurn at h
  split at h
  · exact absurd h (by simp)
  next before afterOpen hopen =>
    have hlen := splitOnce_length hopen
    have hone : (['<'] : Text).length = 1 := rfl
    split at h
    · have hskip := skipPast_drop h
      rw [List.length_drop] at hskip
      omega
    split at h
    · have hskip := skipPast_drop h
      omega
    split at h
    · have hskip := skipPast_drop h
      omega
    split at h
    · exact absurd h (by simp)
    · exact absurd h (by simp)

theorem nextTagTurn_done {text rest : Text} {tag : Tag}
    (h : nextTagTurn text = .done (some (tag, rest))) : rest.length < text.length := by
  have hskip : ∀ pat text', skipPast pat text' ≠ .done (some (tag, rest)) := by
    intro pat text' hc
    unfold skipPast at hc
    split at hc <;> exact absurd hc (by simp)
  unfold nextTagTurn at h
  split at h
  · exact absurd h (by simp)
  next before afterOpen hopen =>
    have hlen := splitOnce_length hopen
    split at h
    · exact absurd h (hskip _ _)
    split at h
    · exact absurd h (hskip _ _)
    split at h
    · exact absurd h (hskip _ _)
    split at h
    · exact absurd h (by simp)
    next body after hclose =>
      have hlen' := splitOnce_length hclose
      have hone : (['>'] : Text).length = 1 := rfl
      injection h with h
      rw [Option.map_eq_some_iff] at h
      obtain ⟨t, -, ht⟩ := h
      injection ht with _ ht
      rw [← ht]
      omega

/-- **The search for a tag ends.** -/
theorem nextTag_total (text : Text) :
    loop nextTagTurn (text.length + 1) text = some (nextTag text) := by
  obtain ⟨r, hr⟩ := loop_isSome List.length (fun s s' h => nextTagTurn_drop h)
    (Nat.lt_succ_self text.length)
  rw [nextTag, hr]
  rfl

/-- A tag that was found leaves a shorter text. -/
theorem nextTag_length {text rest : Text} {tag : Tag} (h : nextTag text = some (tag, rest)) :
    rest.length < text.length := by
  have hloop := nextTag_total text
  rw [h] at hloop
  exact loop_post (fun s => s.length ≤ text.length)
    (fun r => ∀ tag rest, r = some (tag, rest) → rest.length < text.length)
    (fun s s' hs hn => Nat.le_trans (Nat.le_of_lt (nextTagTurn_drop hn)) hs)
    (fun s r hs hd tag rest hr => Nat.lt_of_lt_of_le (nextTagTurn_done (hr ▸ hd)) hs)
    (Nat.le_refl _) hloop tag rest rfl

theorem refTurn_drop {s s' : RefState} (h : refTurn s = .next s') :
    s'.rest.length < s.rest.length := by
  unfold refTurn at h
  split at h
  · exact absurd h (by simp)
  next inner rest htag =>
    have hlen := nextTag_length htag
    dsimp only at h
    split at h
    · exact absurd h (by simp)
    split at h
    · injection h with h
      rw [← h]
      exact hlen
    split at h
    · split at h
      · exact absurd h (by simp)
      · injection h with h
        rw [← h]
        exact hlen
    · injection h with h
      rw [← h]
      exact hlen

theorem refTurn_done {s s' : RefState} (h : refTurn s = .done (.ok s')) :
    s'.rest.length ≤ s.rest.length := by
  unfold refTurn at h
  split at h
  · injection h with h
    injection h with h
    rw [h]
  next inner rest htag =>
    have hlen := nextTag_length htag
    dsimp only at h
    split at h
    · injection h with h
      injection h with h
      rw [← h]
      exact Nat.le_of_lt hlen
    split at h
    · exact absurd h (by simp)
    split at h
    · split at h <;> exact absurd h (by simp)
    · exact absurd h (by simp)

/-- **The reading of a reference ends.** -/
theorem reference_total (rest : Text) :
    loop refTurn (rest.length + 1) ⟨rest, none, none⟩ = some (readReference rest) := by
  have hsome : ∃ r, loop refTurn (rest.length + 1) ⟨rest, none, none⟩ = some r :=
    loop_isSome (fun s => s.rest.length) (fun s s' h => refTurn_drop h) (Nat.lt_succ_self _)
  obtain ⟨r, hr⟩ := hsome
  rw [readReference, hr]
  rfl

theorem readReference_length {rest : Text} {s : RefState} (h : readReference rest = .ok s) :
    s.rest.length ≤ rest.length := by
  have hloop := reference_total rest
  rw [h] at hloop
  exact loop_post (fun t => t.rest.length ≤ rest.length)
    (fun r => ∀ t, r = .ok t → t.rest.length ≤ rest.length)
    (fun t t' ht hn => Nat.le_trans (Nat.le_of_lt (refTurn_drop hn)) ht)
    (fun t r ht hd t' hr => Nat.le_trans (refTurn_done (hr ▸ hd)) ht)
    (Nat.le_refl _) hloop s rfl

theorem dataObjectReference_length {tag : Tag} {text rest : Text} {reference : ManifestRef}
    (h : dataObjectReference tag text = .ok (reference, rest)) : rest.length ≤ text.length := by
  simp only [dataObjectReference, bind_eq_ok, pure_eq_ok] at h
  obtain ⟨_, _, s, hs, _, _, heq⟩ := h
  injection heq with _ hrest
  rw [← hrest]
  exact readReference_length hs

theorem manifestTurn_drop {s s' : Text × List ManifestRef} (h : manifestTurn s = .next s') :
    s'.1.length < s.1.length := by
  unfold manifestTurn at h
  split at h
  · exact absurd h (by simp)
  next tag rest htag =>
    have hlen := nextTag_length htag
    split at h
    · injection h with h
      rw [← h]
      exact hlen
    split at h
    · exact absurd h (by simp)
    next reference rest' href =>
      have hlen' := dataObjectReference_length href
      injection h with h
      rw [← h]
      show rest'.length < s.1.length
      omega

/-- **The scan of a manifest ends.** -/
theorem parseManifest_total (text : Text) :
    loop manifestTurn (text.length + 1) (text, []) = some (manifestRefs text) := by
  have hsome : ∃ r, loop manifestTurn (text.length + 1) (text, []) = some r :=
    loop_isSome (fun s => s.1.length) (fun s s' h => manifestTurn_drop h) (Nat.lt_succ_self _)
  obtain ⟨r, hr⟩ := hsome
  rw [manifestRefs, hr]
  rfl

end Asic

end RefineId
