/-
  RefineId.ManifestText — a written manifest is read back.
  ════════════════════════════════════════════════════════════════════════════

  The writer escapes names and media types; the verifier scans for tags and knows no XML.
  The two meet on every manifest the writer can produce, whatever the names: a media type
  may even hold a `>`, which ends the tag for the scan but only after the URI was read.

  Main results:
    • `decodeUri_percentEncodePath` : a name survives the trip through its URI.
    • `readReference_written`       : the inner loop reads a written reference to its end.
    • `parseManifest_written`       : a manifest gives one reference for each object, with
                                      its name and the digest of its content.
-/
import RefineId.AsicWriter
import RefineId.Manifest

namespace RefineId

namespace Asic

open Lib Cades

/-! ## §1. Names -/

/-- What `decode_uri` and the tag scan leave alone. -/
def plainChar (c : Char) : Bool :=
  c ≠ '&' && c ≠ '<' && c ≠ '>' && c ≠ '"' && c ≠ '\t' && c ≠ '\n' && c ≠ '\r'

theorem percentEncodeByte_plain (b : UInt8) : ∀ c ∈ percentEncodeByte b, plainChar c = true := by
  have hall : ∀ k : Fin 256, (percentEncodeByte (UInt8.ofNat k)).all plainChar = true := by
    decide +kernel
  have hb := hall ⟨b.toNat, b.toNat_lt⟩
  rw [UInt8.ofNat_toNat] at hb
  exact List.all_eq_true.mp hb

theorem percentEncodePath_plain (name : Text) :
    ∀ c ∈ percentEncodePath name, plainChar c = true := by
  intro c hc
  obtain ⟨b, -, hb⟩ := List.mem_flatMap.mp hc
  exact percentEncodeByte_plain b c hb

theorem escapeAttribute_plain {text : Text} (h : ∀ c ∈ text, plainChar c = true) :
    escapeAttribute text = text := by
  induction text with
  | nil => rfl
  | cons c cs ih =>
    have hc := h c List.mem_cons_self
    simp only [plainChar, Bool.and_eq_true, decide_eq_true_eq] at hc
    obtain ⟨⟨⟨⟨⟨⟨h1, h2⟩, -⟩, h3⟩, h4⟩, h5⟩, h6⟩ := hc
    have hone : escapeChar c = [c] := by simp [escapeChar, h1, h2, h3, h4, h5, h6]
    show escapeChar c ++ escapeAttribute cs = c :: cs
    rw [hone, ih fun x hx => h x (List.mem_cons_of_mem _ hx)]
    rfl

/-- No character that the tag scan stops at is left by the escapes. -/
theorem escapeAttribute_open (text : Text) : '<' ∉ escapeAttribute text := by
  intro h
  obtain ⟨c, -, hc⟩ := List.mem_flatMap.mp h
  unfold escapeChar at hc
  split at hc
  · exact absurd hc (by decide)
  split at hc
  · exact absurd hc (by decide)
  next hlt =>
    split at hc
    · exact absurd hc (by decide)
    split at hc
    · exact absurd hc (by decide)
    split at hc
    · exact absurd hc (by decide)
    split at hc
    · exact absurd hc (by decide)
    · exact hlt (List.mem_singleton.mp hc).symm

theorem replaceAll_none {a : Char} {pat new text : Text} (h : a ∉ text) :
    replaceAll (a :: pat) new text = text := by
  have hnone : splitOnce (a :: pat) text = none := splitOnce_none_of_head h
  unfold replaceAll
  cases text with
  | nil => rfl
  | cons c cs => rw [List.length_cons, replaceFuel, hnone]

theorem percentStep_plain {b : UInt8} (rest : Bytes) (h : b ≠ 37) :
    percentStep (b :: rest) = (b, some rest) := by
  unfold percentStep
  split
  next heq =>
    injection heq with hb
    exact absurd hb h
  next heq =>
    injection heq with h1 h2
    rw [h1, h2]
  next heq => exact absurd heq (by simp)

/-- What an octet is encoded as: itself, or `%` and two digits that give it back. -/
theorem percentEncodeByte_octets (b : UInt8) :
    (b ≠ 37 ∧ utf8Encode (percentEncodeByte b) = [b]) ∨
      ∃ x y, utf8Encode (percentEncodeByte b) = [37, x, y] ∧ hexPair x y = some b := by
  have hall : ∀ k : Fin 256,
      let b := UInt8.ofNat k
      let x := UInt8.ofNat (hexDigit (k / 16)).toNat
      let y := UInt8.ofNat (hexDigit (k % 16)).toNat
      (b ≠ 37 ∧ utf8Encode (percentEncodeByte b) = [b]) ∨
        utf8Encode (percentEncodeByte b) = [37, x, y] ∧ hexPair x y = some b := by
    decide +kernel
  have hb := hall ⟨b.toNat, b.toNat_lt⟩
  simp only [UInt8.ofNat_toNat] at hb
  rcases hb with hb | hb
  · exact Or.inl hb
  · exact Or.inr ⟨_, _, hb⟩

theorem percentStep_encode (b : UInt8) (rest : Bytes) :
    percentStep (utf8Encode (percentEncodeByte b) ++ rest) = (b, some rest) := by
  rcases percentEncodeByte_octets b with ⟨hne, henc⟩ | ⟨x, y, henc, hpair⟩
  · rw [henc]
    exact percentStep_plain rest hne
  · rw [henc]
    simp only [List.cons_append, List.nil_append, percentStep, hpair]

theorem percentStep_shrinks : Shrinks percentStep := by
  intro input item rest h
  unfold percentStep at h
  split at h
  next a b tail =>
    split at h
    · injection h with _ h
      injection h with h
      rw [← h]
      simp only [List.length_cons]
      omega
    · injection h with _ h
      injection h with h
      rw [← h]
      simp only [List.length_cons]
      omega
  next b tail _ =>
    injection h with _ h
    injection h with h
    rw [← h]
    simp only [List.length_cons]
    omega
  · exact absurd h (by simp)

theorem utf8Encode_append (a b : Text) : utf8Encode (a ++ b) = utf8Encode a ++ utf8Encode b :=
  List.flatMap_append

theorem percentDecode_encode (bytes : Bytes) :
    unfold percentStep (utf8Encode (bytes.flatMap percentEncodeByte)) = bytes := by
  induction bytes with
  | nil => rfl
  | cons b bs ih =>
    have hstep := percentStep_encode b (utf8Encode (bs.flatMap percentEncodeByte))
    rw [List.flatMap_cons, utf8Encode_append]
    cases hlist : utf8Encode (percentEncodeByte b) ++ utf8Encode (bs.flatMap percentEncodeByte) with
    | nil =>
      rw [hlist] at hstep
      exact absurd hstep (by simp [percentStep])
    | cons x xs =>
      rw [hlist] at hstep
      rw [unfold_cons percentStep_shrinks, hstep]
      dsimp only
      rw [ih]

/-- **A written name is read back.** -/
theorem decodeUri_percentEncodePath (name : Text) : decodeUri (percentEncodePath name) = name := by
  have hamp : '&' ∉ percentEncodePath name := by
    intro h
    exact absurd (percentEncodePath_plain name _ h) (by decide)
  have hrep : ∀ (pat : String) (new : Text) (tail : Text), chars pat = '&' :: tail →
      replaceAll (chars pat) new (percentEncodePath name) = percentEncodePath name := by
    intro pat new tail hpat
    rw [hpat]
    exact replaceAll_none hamp
  dsimp only [decodeUri]
  rw [hrep "&quot;" _ _ (chars_ofList _), hrep "&apos;" _ _ (chars_ofList _),
    hrep "&lt;" _ _ (chars_ofList _), hrep "&gt;" _ _ (chars_ofList _),
    hrep "&amp;" _ _ (chars_ofList _)]
  show fromUtf8Lossy (unfold percentStep (utf8Encode ((utf8Encode name).flatMap percentEncodeByte))) =
    name
  rw [percentDecode_encode, fromUtf8Lossy_utf8Encode]

/-! ## §2. Tags -/

theorem nextTag_eq (text : Text) :
    nextTag text = match nextTagTurn text with
      | .done r => r
      | .next rest => nextTag rest := by
  have hrun : Runs nextTagTurn text (match nextTagTurn text with
      | .done r => r
      | .next rest => nextTag rest) := by
    cases hturn : nextTagTurn text with
    | done r => exact .done hturn
    | next rest =>
      have hrest := runs_of_loop (nextTag_total rest)
      exact .next hturn hrest
  have hloop := loop_of_runs List.length (fun s s' h => nextTagTurn_drop h) hrun
    (Nat.lt_succ_self text.length)
  rw [nextTag_total] at hloop
  exact Option.some.inj hloop

/-- Drop a closing slash. -/
def stripSlash (body : Text) : Text := if body.getLast? = some '/' then body.dropLast else body

theorem stripSlash_append {tail : Text} (front : Text) (h : tail ≠ []) :
    stripSlash (front ++ tail) = front ++ stripSlash tail := by
  unfold stripSlash
  rw [List.getLast?_append_of_ne_nil front h]
  split
  · rw [List.dropLast_append_of_ne_nil h]
  · rfl

theorem tagOf_open {body : Text} (h : body.head? ≠ some '/') :
    tagOf body =
      let body := stripSlash body
      let name := body.takeWhile fun c => !isWhitespace c
      if name.isEmpty then none
      else some ⟨name, body.dropWhile fun c => !isWhitespace c, false⟩ := by
  unfold tagOf
  split
  next heq =>
    split at heq
    · exact absurd rfl h
    · injection heq with h1 h2
      rw [← h1, ← h2]
      rfl

/-- An opening tag with attributes. -/
theorem tagOf_attrs {c : Char} {cs : Text} (attrs : Text) (hc : c ≠ '/')
    (hname : ∀ x ∈ c :: cs, isWhitespace x = false) :
    tagOf (c :: cs ++ ' ' :: attrs) = some ⟨c :: cs, ' ' :: stripSlash attrs, false⟩ := by
  have hspace : stripSlash (' ' :: attrs) = ' ' :: stripSlash attrs := by
    by_cases hnil : attrs = []
    · rw [hnil]
      decide
    · exact stripSlash_append [' '] hnil
  have hbody : stripSlash (c :: cs ++ ' ' :: attrs) = c :: cs ++ ' ' :: stripSlash attrs := by
    rw [stripSlash_append _ (by simp), hspace]
  have hpos : ∀ x ∈ c :: cs, (!isWhitespace x) = true := by
    intro x hx
    rw [hname x hx]
    rfl
  have hstop : (!isWhitespace ' ') = false := by decide
  rw [tagOf_open (by simpa using hc)]
  simp only [hbody, List.takeWhile_append_of_pos hpos, List.dropWhile_append_of_pos hpos,
    List.takeWhile_cons, List.dropWhile_cons, hstop]
  simp

theorem not_comment {c : Char} (tail : Text) (h : c ≠ '!') :
    (chars "!--").isPrefixOf (c :: tail) = false := by
  have hchars : chars "!--" = ['!', '-', '-'] := chars_ofList _
  have hc : ('!' == c) = false := by simpa using Ne.symm h
  rw [hchars]
  show (('!' == c) && _) = false
  rw [hc]
  rfl

/-- The next tag is the first `<…>`, when that is an element. -/
theorem nextTag_element {pre body : Text} (after : Text) (hpre : '<' ∉ pre) (hne : body ≠ [])
    (hbang : body.head? ≠ some '!') (hquery : body.head? ≠ some '?') (hbody : '>' ∉ body) :
    nextTag (pre ++ '<' :: (body ++ '>' :: after)) =
      (tagOf body).map fun tag => (tag, after) := by
  obtain ⟨c, cs, rfl⟩ := List.exists_cons_of_ne_nil hne
  have hc1 : ¬ c = '!' := by simpa using hbang
  have hc2 : ¬ c = '?' := by simpa using hquery
  have hsplit := splitOnce_char after hbody
  have hturn : nextTagTurn (pre ++ '<' :: (c :: cs ++ '>' :: after)) =
      .done ((tagOf (c :: cs)).map fun tag => (tag, after)) := by
    unfold nextTagTurn
    rw [splitOnce_char _ hpre]
    rw [List.cons_append] at hsplit
    simp only [not_comment _ hc1, hsplit, List.cons_append, List.head?_cons, Option.some.injEq, hc1, hc2,
      Bool.false_eq_true, if_false]
  rw [nextTag_eq, hturn]

/-- The inside of an element's tag: not a comment or a declaration, and closed by the next `>`. -/
def isElementBody (body : Text) : Bool :=
  !body.isEmpty && body.head? ≠ some '!' && body.head? ≠ some '?' && !body.contains '>'

theorem nextTag_body {pre body : Text} (after : Text) (hpre : '<' ∉ pre)
    (h : isElementBody body = true) :
    nextTag (pre ++ '<' :: (body ++ '>' :: after)) =
      (tagOf body).map fun tag => (tag, after) := by
  simp only [isElementBody, Bool.and_eq_true, decide_eq_true_eq] at h
  obtain ⟨⟨⟨hne, hbang⟩, hquery⟩, hbody⟩ := h
  have hclose : '>' ∉ body := by simpa using hbody
  exact nextTag_element after hpre (by simpa using hne) hbang hquery hclose

theorem nextTag_none {text : Text} (h : '<' ∉ text) : nextTag text = none := by
  have hturn : nextTagTurn text = .done none := by
    unfold nextTagTurn
    rw [splitOnce_none_of_head h]
  rw [nextTag_eq, hturn]

theorem attrValue_first {wanted : String} {c : Char} {cs value : Text} (more : Text)
    (hw : chars wanted = c :: cs) (hc : c ≠ ' ') (hvalue : '"' ∉ value) :
    attrValue (' ' :: (chars wanted ++ ('=' :: '"' :: (value ++ '"' :: more)))) wanted =
      some value := by
  have hpat : chars (wanted ++ "=\"") = c :: (cs ++ ['=', '"']) := by
    have heq : chars "=\"" = ['=', '"'] := chars_ofList _
    unfold chars at hw heq ⊢
    rw [String.toList_append, hw, heq]
    rfl
  have htext : ' ' :: (chars wanted ++ ('=' :: '"' :: (value ++ '"' :: more))) =
      ' ' :: (c :: (cs ++ ['=', '"']) ++ (value ++ '"' :: more)) := by
    rw [hw]
    simp
  unfold attrValue
  rw [hpat, htext, splitOnce_second _ hc.symm]
  simp only [splitOnce_char more hvalue]
  rfl

/-! ## §3. One reference -/

/-- The short label of an algorithm. -/
def digestLabel : DigestAlgorithm → String
  | .sha256 => "SHA-256"
  | .sha384 => "SHA-384"

/-- The reference the parser makes of an object. -/
def refOf (E : Externals) (algorithm : DigestAlgorithm) (object : DataObject) : ManifestRef where
  uri := object.name
  rawUri := percentEncodePath object.name
  algorithm
  label := digestLabel algorithm
  expected := algorithm.digest E object.content

theorem digestByUri_digestMethodUri (algorithm : DigestAlgorithm) :
    digestByUri (digestMethodUri algorithm) = .ok (algorithm, digestLabel algorithm) := by
  cases algorithm <;> decide

/-- The end of a written reference, after its DigestMethod. -/
def valueText (digest : Bytes) (rest : Text) : Text :=
  chars "\n    " ++ '<' :: (chars "ds:DigestValue" ++ '>' :: (asciiText (Base64.encode digest) ++
    '<' :: (chars "/ds:DigestValue" ++ '>' :: (chars "\n  " ++
      '<' :: (chars "/asic:DataObjectReference" ++ '>' :: rest)))))

/-- A written reference, after its opening tag. -/
def innerText (algorithm : DigestAlgorithm) (digest : Bytes) (rest : Text) : Text :=
  chars "\n    " ++ '<' :: (chars "ds:DigestMethod Algorithm=\"" ++ digestMethodUri algorithm ++
    chars "\"/" ++ '>' :: valueText digest rest)

theorem encode_open (digest : Bytes) : '<' ∉ asciiText (Base64.encode digest) := by
  intro h
  obtain ⟨x, hx, hc⟩ := List.mem_map.mp h
  rcases Base64.encode_mem hx with rfl | ⟨n, hn, rfl⟩
  · exact absurd hc (by decide)
  · have hall : ∀ k : Fin 64, Char.ofNat (Base64.alphabet k).toNat ≠ '<' := by decide
    exact hall ⟨n, hn⟩ hc

theorem refTurn_method {s : RefState} {algorithm : DigestAlgorithm} {digest : Bytes} {z rest : Text}
    (hz : '<' ∉ z) (hs : s.rest = z ++ innerText algorithm digest rest) :
    refTurn s = .next ⟨valueText digest rest, some (digestMethodUri algorithm), s.value⟩ := by
  have hpre : '<' ∉ z ++ chars "\n    " := by
    rw [List.mem_append]
    exact not_or.mpr ⟨hz, by rw [chars_ofList]; decide⟩
  have htag : nextTag s.rest = some (⟨chars "ds:DigestMethod",
      chars " Algorithm=\"" ++ digestMethodUri algorithm ++ ['"'], false⟩,
      valueText digest rest) := by
    have hshape : s.rest = (z ++ chars "\n    ") ++ '<' :: ((chars "ds:DigestMethod Algorithm=\"" ++
        digestMethodUri algorithm ++ chars "\"/") ++ '>' :: valueText digest rest) := by
      rw [hs, innerText]
      simp only [List.append_assoc]
    rw [hshape, nextTag_element _ hpre]
    · cases algorithm <;> rfl
    all_goals cases algorithm <;> decide
  have hattr : attrValue (chars " Algorithm=\"" ++ digestMethodUri algorithm ++ ['"'])
      "Algorithm" = some (digestMethodUri algorithm) := by
    cases algorithm <;> decide
  have hname : localName (chars "ds:DigestMethod") = chars "DigestMethod" := by
    rw [chars_ofList, chars_ofList]
    decide
  have h1 : chars "DigestMethod" ≠ chars "DataObjectReference" := by
    rw [chars_ofList, chars_ofList]
    decide
  unfold refTurn
  rw [htag]
  simp only [hname, h1, hattr]
  simp

theorem refTurn_value {s : RefState} {digest : Bytes} {rest : Text}
    (hs : s.rest = valueText digest rest) :
    refTurn s = .next ⟨asciiText (Base64.encode digest) ++
      '<' :: (chars "/ds:DigestValue" ++ '>' :: (chars "\n  " ++
        '<' :: (chars "/asic:DataObjectReference" ++ '>' :: rest))), s.algorithm,
      some (asciiText (Base64.encode digest))⟩ := by
  have hname : localName (chars "ds:DigestValue") = chars "DigestValue" := by
    rw [chars_ofList, chars_ofList]
    decide
  have h1 : chars "DigestValue" ≠ chars "DigestMethod" := by
    rw [chars_ofList, chars_ofList]
    decide
  have htag : tagOf (chars "ds:DigestValue") = some ⟨chars "ds:DigestValue", [], false⟩ := by
    rw [chars_ofList]
    decide
  unfold refTurn
  rw [hs, valueText, nextTag_body _ (by rw [chars_ofList]; decide) (by rw [chars_ofList]; decide),
    htag]
  simp only [Option.map_some, hname, h1, splitOnce_char _ (encode_open digest),
    Base64.trim_encode]
  simp

theorem refTurn_closing {s : RefState} {z : Text} (rest : Text) (hz : '<' ∉ z)
    (hs : s.rest = z ++ '<' :: (chars "/ds:DigestValue" ++ '>' :: rest)) :
    refTurn s = .next { s with rest } := by
  have hname : localName (chars "ds:DigestValue") = chars "DigestValue" := by
    rw [chars_ofList, chars_ofList]
    decide
  have h1 : chars "DigestValue" ≠ chars "DataObjectReference" := by
    rw [chars_ofList, chars_ofList]
    decide
  have htag : tagOf (chars "/ds:DigestValue") = some ⟨chars "ds:DigestValue", [], true⟩ := by
    rw [chars_ofList, chars_ofList]
    decide
  unfold refTurn
  rw [hs, nextTag_body _ hz (by rw [chars_ofList]; decide), htag]
  simp only [Option.map_some, hname, h1]
  simp

theorem refTurn_end {s : RefState} (rest : Text)
    (hs : s.rest = chars "\n  " ++ '<' :: (chars "/asic:DataObjectReference" ++ '>' :: rest)) :
    refTurn s = .done (.ok { s with rest }) := by
  have hname : localName (chars "asic:DataObjectReference") = chars "DataObjectReference" := by
    rw [chars_ofList, chars_ofList]
    decide
  have htag : tagOf (chars "/asic:DataObjectReference") =
      some ⟨chars "asic:DataObjectReference", [], true⟩ := by
    rw [chars_ofList, chars_ofList]
    decide
  unfold refTurn
  rw [hs, nextTag_body _ (by rw [chars_ofList]; decide) (by rw [chars_ofList]; decide), htag]
  simp only [Option.map_some, hname]
  simp

/-- **The inner loop reads a written reference**: its algorithm, its digest, to its end. -/
theorem readReference_written {algorithm : DigestAlgorithm} {digest : Bytes} {z : Text}
    (rest : Text) (hz : '<' ∉ z) :
    readReference (z ++ innerText algorithm digest rest) =
      .ok ⟨rest, some (digestMethodUri algorithm), some (asciiText (Base64.encode digest))⟩ := by
  have hrun : Runs refTurn ⟨z ++ innerText algorithm digest rest, none, none⟩
      (.ok ⟨rest, some (digestMethodUri algorithm), some (asciiText (Base64.encode digest))⟩) :=
    .next (refTurn_method hz rfl) <| .next (refTurn_value rfl) <|
      .next (refTurn_closing _ (encode_open digest) rfl) <| .done (refTurn_end rest rfl)
  have hloop := loop_of_runs (fun s => s.rest.length) (fun s s' h => refTurn_drop h) hrun
    (Nat.lt_succ_self _)
  rw [reference_total] at hloop
  exact Option.some.inj hloop

/-- A media type ends at its quote or at a `>` of its own; either way the rest of the tag
    has no `<`. -/
theorem split_media {media : Text} (tail : Text) (h : '<' ∉ media) :
    ∃ x z, '>' ∉ x ∧ '<' ∉ z ∧ media ++ '"' :: '>' :: tail = x ++ '>' :: (z ++ tail) := by
  by_cases hmem : '>' ∈ media
  · obtain ⟨a, b, hm, ha⟩ := List.eq_append_cons_of_mem hmem
    refine ⟨a, b ++ ['"', '>'], ha, ?_, ?_⟩
    · intro hb
      rcases List.mem_append.mp hb with hb | hb
      · exact h (hm ▸ List.mem_append_right _ (List.mem_cons_of_mem _ hb))
      · exact absurd hb (by decide)
    · rw [hm]
      simp
  · refine ⟨media ++ ['"'], [], ?_, by simp, by simp⟩
    intro hb
    rcases List.mem_append.mp hb with hb | hb
    · exact hmem hb
    · exact absurd hb (by decide)

theorem stripSlash_quoted (front more : Text) :
    ∃ more', stripSlash (front ++ '"' :: more) = front ++ '"' :: more' := by
  refine ⟨stripSlash more, ?_⟩
  rw [stripSlash_append _ (by simp)]
  by_cases hnil : more = []
  · rw [hnil]
    congr 1
  · rw [show '"' :: more = ['"'] ++ more from rfl, stripSlash_append _ hnil]
    rfl

theorem dataObjectReference_written {E : Externals} {algorithm : DigestAlgorithm}
    {object : DataObject} {z more : Text} (rest : Text) (hz : '<' ∉ z) :
    dataObjectReference ⟨chars "asic:DataObjectReference", ' ' :: (chars "URI" ++ ('=' :: '"' ::
        (percentEncodePath object.name ++ '"' :: more))), false⟩
      (z ++ innerText algorithm (algorithm.digest E object.content) rest) =
        .ok (refOf E algorithm object, rest) := by
  have hquote : '"' ∉ percentEncodePath object.name := by
    intro h
    exact absurd (percentEncodePath_plain object.name _ h) (by decide)
  have huri : chars "URI" = 'U' :: ['R', 'I'] := chars_ofList _
  simp only [dataObjectReference, bind_eq_ok, okOr_eq_ok, pure_eq_ok]
  refine ⟨_, attrValue_first more huri (by decide) hquote, _, readReference_written rest hz,
    refOf E algorithm object, ?_, rfl⟩
  simp only [buildReference, bind_eq_ok, okOr_eq_ok, mapError_eq_ok_iff, pure_eq_ok]
  refine ⟨_, rfl, _, digestByUri_digestMethodUri algorithm, _, rfl, _, Base64.decode_encode _, ?_⟩
  rw [decodeUri_percentEncodePath]
  rfl

/-- The literals of a reference, cut where the scan cuts them. -/
theorem referenceText_eq (E : Externals) (algorithm : DigestAlgorithm) (object : DataObject)
    (rest : Text) :
    referenceText E algorithm object ++ rest =
      chars "  " ++ '<' :: (chars "asic:DataObjectReference" ++ ' ' :: (chars "URI" ++
        ('=' :: '"' :: (percentEncodePath object.name ++ '"' :: (chars " MimeType=\"" ++
          (escapeAttribute object.mimeType ++ '"' :: '>' ::
            innerText algorithm (algorithm.digest E object.content) ('\n' :: rest))))))) := by
  have h1 : chars "  <asic:DataObjectReference URI=\"" = chars "  " ++ '<' ::
      (chars "asic:DataObjectReference" ++ ' ' :: (chars "URI" ++ ['=', '"'])) := by
    rw [chars_ofList, chars_ofList, chars_ofList, chars_ofList]
    rfl
  have h2 : chars "\" MimeType=\"" = '"' :: chars " MimeType=\"" := by
    rw [chars_ofList, chars_ofList]
  have h3 : chars "\">\n" = ['"', '>', '\n'] := chars_ofList _
  have h4 : chars "    <ds:DigestMethod Algorithm=\"" =
      chars "    " ++ '<' :: chars "ds:DigestMethod Algorithm=\"" := by
    rw [chars_ofList, chars_ofList, chars_ofList]
    rfl
  have h5 : chars "\"/>\n" = chars "\"/" ++ ['>', '\n'] := by
    rw [chars_ofList, chars_ofList]
    rfl
  have h6 : chars "    <ds:DigestValue>" = chars "    " ++ '<' :: (chars "ds:DigestValue" ++ ['>']) := by
    rw [chars_ofList, chars_ofList, chars_ofList]
    rfl
  have h7 : chars "</ds:DigestValue>\n" = '<' :: (chars "/ds:DigestValue" ++ ['>', '\n']) := by
    rw [chars_ofList, chars_ofList]
    rfl
  have h8 : chars "  </asic:DataObjectReference>\n" =
      chars "  " ++ '<' :: (chars "/asic:DataObjectReference" ++ ['>', '\n']) := by
    rw [chars_ofList, chars_ofList, chars_ofList]
    rfl
  have h9 : chars "\n    " = '\n' :: chars "    " := by rw [chars_ofList, chars_ofList]
  have h10 : chars "\n  " = '\n' :: chars "  " := by rw [chars_ofList, chars_ofList]
  rw [referenceText, escapeAttribute_plain (percentEncodePath_plain object.name), innerText,
    valueText, h1, h2, h3, h4, h5, h6, h7, h8, h9, h10]
  simp only [List.append_assoc, List.cons_append, List.nil_append]

/-- **One written reference is one turn of the scan.** -/
theorem manifestTurn_reference (E : Externals) (algorithm : DigestAlgorithm)
    (object : DataObject) (refs : List ManifestRef) {ws : Text} (rest : Text) (hws : '<' ∉ ws) :
    manifestTurn (ws ++ (referenceText E algorithm object ++ rest), refs) =
      .next ('\n' :: rest, refs ++ [refOf E algorithm object]) := by
  have hclose : '>' ∉ percentEncodePath object.name := by
    intro h
    exact absurd (percentEncodePath_plain object.name _ h) (by decide)
  obtain ⟨x, z, hx, hz, hmedia⟩ := split_media
    (innerText algorithm (algorithm.digest E object.content) ('\n' :: rest))
    (escapeAttribute_open object.mimeType)
  -- the opening tag ends at the first `>`, be it one of the media type
  have hshape : ws ++ (referenceText E algorithm object ++ rest) =
      (ws ++ chars "  ") ++ '<' :: ((chars "asic:DataObjectReference" ++ ' ' :: (chars "URI" ++
        ('=' :: '"' :: (percentEncodePath object.name ++ '"' :: (chars " MimeType=\"" ++ x))))) ++
        '>' :: (z ++ innerText algorithm (algorithm.digest E object.content) ('\n' :: rest))) := by
    rw [referenceText_eq, hmedia]
    simp only [List.append_assoc, List.cons_append]
  have hpre : '<' ∉ ws ++ chars "  " := by
    rw [List.mem_append]
    exact not_or.mpr ⟨hws, by rw [chars_ofList]; decide⟩
  have hbody : '>' ∉ chars "asic:DataObjectReference" ++ ' ' :: (chars "URI" ++
      ('=' :: '"' :: (percentEncodePath object.name ++ '"' :: (chars " MimeType=\"" ++ x)))) := by
    have h1 : '>' ∉ chars "asic:DataObjectReference" := by rw [chars_ofList]; decide
    have h2 : '>' ∉ chars "URI" := by rw [chars_ofList]; decide
    have h3 : '>' ∉ chars " MimeType=\"" := by rw [chars_ofList]; decide
    simp [h1, h2, h3, hclose, hx]
  have hchars : chars "asic:DataObjectReference" = 'a' :: (chars "asic:DataObjectReference").tail := by
    rw [chars_ofList]
    rfl
  obtain ⟨more, hstrip⟩ := stripSlash_quoted
    (chars "URI" ++ ('=' :: '"' :: percentEncodePath object.name)) (chars " MimeType=\"" ++ x)
  have htag : tagOf (chars "asic:DataObjectReference" ++ ' ' :: (chars "URI" ++
      ('=' :: '"' :: (percentEncodePath object.name ++ '"' :: (chars " MimeType=\"" ++ x))))) =
      some ⟨chars "asic:DataObjectReference", ' ' :: (chars "URI" ++ ('=' :: '"' ::
        (percentEncodePath object.name ++ '"' :: more))), false⟩ := by
    have hws' : ∀ c ∈ chars "asic:DataObjectReference", isWhitespace c = false := by
      have hall : (chars "asic:DataObjectReference").all (fun c => !isWhitespace c) = true := by
        rw [chars_ofList]
        decide
      simpa using hall
    simp only [List.append_assoc, List.cons_append] at hstrip
    rw [hchars] at hws' ⊢
    rw [tagOf_attrs _ (by decide) hws', hstrip]
  have hname : localName (chars "asic:DataObjectReference") = chars "DataObjectReference" := by
    rw [chars_ofList, chars_ofList]
    decide
  unfold manifestTurn
  dsimp only
  rw [hshape, nextTag_element _ hpre (by simp) _ _ hbody, htag]
  · simp only [Option.map_some, hname, dataObjectReference_written _ hz]
    simp
  · rw [hchars]
    simp
  · rw [hchars]
    simp

/-! ## §4. The whole manifest -/

theorem manifestTurn_close {ws : Text} {refs : List ManifestRef} (hws : '<' ∉ ws) :
    manifestTurn (ws ++ chars "</asic:ASiCManifest>\n", refs) = .next (['\n'], refs) := by
  have hchars : chars "</asic:ASiCManifest>\n" = '<' :: (chars "/asic:ASiCManifest" ++ ['>', '\n']) := by
    rw [chars_ofList, chars_ofList]
    rfl
  have htag : tagOf (chars "/asic:ASiCManifest") = some ⟨chars "asic:ASiCManifest", [], true⟩ := by
    rw [chars_ofList, chars_ofList]
    decide
  unfold manifestTurn
  dsimp only
  rw [hchars, nextTag_body _ hws (by rw [chars_ofList]; decide), htag]
  rfl

/-- The references, and after them the end of the manifest. -/
theorem runs_references {E : Externals} {algorithm : DigestAlgorithm} {covered : List DataObject}
    (refs : List ManifestRef) :
    Runs manifestTurn ('\n' :: (covered.flatMap (referenceText E algorithm) ++
      chars "</asic:ASiCManifest>\n"), refs) (.ok (refs ++ covered.map (refOf E algorithm))) := by
  induction covered generalizing refs with
  | nil =>
    rw [List.map_nil, List.append_nil]
    have hlast : manifestTurn (['\n'], refs) = .done (.ok refs) := by
      unfold manifestTurn
      dsimp only
      rw [nextTag_none (by decide)]
    have hclose : '<' ∉ ['\n'] := by decide
    exact .next (manifestTurn_close hclose) (.done hlast)
  | cons object rest ih =>
    have hws : '<' ∉ ['\n'] := by decide
    have hnext := ih (refs ++ [refOf E algorithm object])
    rw [List.append_assoc] at hnext
    have hturn := manifestTurn_reference E algorithm object refs
      (rest.flatMap (referenceText E algorithm) ++ chars "</asic:ASiCManifest>\n") hws
    rw [List.flatMap_cons, List.append_assoc, List.map_cons]
    exact .next hturn hnext

theorem manifestTurn_skip {pre body : Text} {after : Text} {refs : List ManifestRef} {tag : Tag}
    (hpre : '<' ∉ pre) (hne : body ≠ []) (hbang : body.head? ≠ some '!')
    (hquery : body.head? ≠ some '?') (hbody : '>' ∉ body) (htag : tagOf body = some tag)
    (hname : localName tag.name ≠ chars "DataObjectReference") :
    manifestTurn (pre ++ '<' :: (body ++ '>' :: after), refs) = .next (after, refs) := by
  unfold manifestTurn
  dsimp only
  rw [nextTag_element after hpre hne hbang hquery hbody, htag]
  simp [hname]

/-- The XML declaration is no tag. -/
theorem nextTag_declaration (rest : Text) :
    nextTag (chars "<?xml version=\"1.0\" encoding=\"UTF-8\"?>" ++ rest) = nextTag rest := by
  have hturn : nextTagTurn (chars "<?xml version=\"1.0\" encoding=\"UTF-8\"?>" ++ rest) =
      .next rest := by
    have hchars : chars "<?xml version=\"1.0\" encoding=\"UTF-8\"?>" =
        [] ++ '<' :: (chars "?xml version=\"1.0\" encoding=\"UTF-8\"" ++ ['?', '>']) := by
      rw [chars_ofList, chars_ofList]
      rfl
    have hquery : chars "?xml version=\"1.0\" encoding=\"UTF-8\"" =
        '?' :: chars "xml version=\"1.0\" encoding=\"UTF-8\"" := by rw [chars_ofList, chars_ofList]
    have hend : chars "?>" = ['?', '>'] := chars_ofList _
    have hclose : '>' ∉ chars "?xml version=\"1.0\" encoding=\"UTF-8\"" := by
      rw [chars_ofList]
      decide
    have hpair := splitOnce_pair rest (by decide : '?' ≠ '>') hclose
    unfold nextTagTurn skipPast
    rw [hchars, List.append_assoc, List.cons_append, splitOnce_char _ (by simp)]
    rw [List.append_assoc]
    simp only [hend]
    rw [hquery] at hpair ⊢
    simp only [List.cons_append, List.nil_append] at hpair ⊢
    rw [not_comment _ (by decide), hpair]
    simp
  rw [nextTag_eq, hturn]

/-- The root element's tag, without its brackets. -/
def rootBody : Text :=
  chars "asic:ASiCManifest xmlns:asic=\"http://uri.etsi.org/02918/v1.2.1#\" xmlns:ds=\"http://www.w3.org/2000/09/xmldsig#\""

/-- The SigReference's tag, without its brackets. -/
def sigBody (sigUri sigMime : Text) : Text :=
  chars "asic:SigReference" ++ ' ' :: (chars "URI=\"" ++ (sigUri ++ (chars "\" MimeType=\"" ++
    (sigMime ++ chars "\"/"))))

/-- The literals of a manifest, cut where the scan cuts them. -/
theorem manifestText_eq (E : Externals) (algorithm : DigestAlgorithm) (sigUri sigMime : Text)
    (covered : List DataObject) :
    manifestText E algorithm sigUri sigMime covered =
      chars "<?xml version=\"1.0\" encoding=\"UTF-8\"?>" ++ (['\n'] ++ '<' :: (rootBody ++ '>' ::
        (chars "\n  " ++ '<' :: (sigBody sigUri sigMime ++ '>' ::
          '\n' :: (covered.flatMap (referenceText E algorithm) ++
            chars "</asic:ASiCManifest>\n"))))) := by
  have hroot : chars "\n<asic:ASiCManifest xmlns:asic=\"http://uri.etsi.org/02918/v1.2.1#\" xmlns:ds=\"http://www.w3.org/2000/09/xmldsig#\">\n" =
      ['\n'] ++ '<' :: (rootBody ++ ['>', '\n']) := by
    rw [rootBody, chars_ofList, chars_ofList]
    rfl
  have hsig : chars "  <asic:SigReference URI=\"" =
      chars "  " ++ '<' :: (chars "asic:SigReference" ++ ' ' :: chars "URI=\"") := by
    rw [chars_ofList, chars_ofList, chars_ofList, chars_ofList]
    rfl
  have hend : chars "\"/>\n" = chars "\"/" ++ ['>', '\n'] := by
    rw [chars_ofList, chars_ofList]
    rfl
  have hline : chars "\n  " = '\n' :: chars "  " := by rw [chars_ofList, chars_ofList]
  rw [manifestText, sigBody, hroot, hsig, hend, hline]
  simp only [List.append_assoc, List.cons_append, List.nil_append]

theorem manifestTurn_sigReference {sigUri sigMime : Text} (rest : Text) (refs : List ManifestRef)
    (huri : '>' ∉ sigUri) (hmime : '>' ∉ sigMime) :
    manifestTurn (chars "\n  " ++ '<' :: (sigBody sigUri sigMime ++ '>' :: rest), refs) =
      .next (rest, refs) := by
  have hchars : chars "asic:SigReference" = 'a' :: (chars "asic:SigReference").tail := by
    rw [chars_ofList]
    rfl
  have hname : ∀ c ∈ chars "asic:SigReference", isWhitespace c = false := by
    have hall : (chars "asic:SigReference").all (fun c => !isWhitespace c) = true := by
      rw [chars_ofList]
      decide
    simpa using hall
  have hlocal : localName (chars "asic:SigReference") ≠ chars "DataObjectReference" := by
    rw [chars_ofList, chars_ofList]
    decide
  have hbody : '>' ∉ sigBody sigUri sigMime := by
    have h1 : '>' ∉ chars "asic:SigReference" := by rw [chars_ofList]; decide
    have h2 : '>' ∉ chars "URI=\"" := by rw [chars_ofList]; decide
    have h3 : '>' ∉ chars "\" MimeType=\"" := by rw [chars_ofList]; decide
    have h4 : '>' ∉ chars "\"/" := by rw [chars_ofList]; decide
    simp [sigBody, h1, h2, h3, h4, huri, hmime]
  have htag : tagOf (sigBody sigUri sigMime) = some ⟨chars "asic:SigReference", ' ' ::
      stripSlash (chars "URI=\"" ++ (sigUri ++ (chars "\" MimeType=\"" ++
        (sigMime ++ chars "\"/")))), false⟩ := by
    unfold sigBody
    rw [hchars] at hname ⊢
    exact tagOf_attrs _ (by decide) hname
  refine manifestTurn_skip (by rw [chars_ofList]; decide) ?_ ?_ ?_ hbody htag hlocal
  all_goals
    unfold sigBody
    rw [hchars]
    simp

/-- **A written manifest is read back**: one reference for each object, in order. -/
theorem parseManifest_written {E : Externals} {algorithm : DigestAlgorithm} {sigUri sigMime : Text}
    {covered : List DataObject} (hne : covered ≠ []) (huri : '>' ∉ sigUri) (hmime : '>' ∉ sigMime) :
    parseManifest (utf8Encode (manifestText E algorithm sigUri sigMime covered)) =
      .ok (covered.map (refOf E algorithm)) := by
  have hroot : manifestTurn (manifestText E algorithm sigUri sigMime covered, []) =
      .next (chars "\n  " ++ '<' :: (sigBody sigUri sigMime ++ '>' ::
          '\n' :: (covered.flatMap (referenceText E algorithm) ++
            chars "</asic:ASiCManifest>\n")), []) := by
    have htag : tagOf rootBody = some ⟨chars "asic:ASiCManifest",
        rootBody.drop (chars "asic:ASiCManifest").length, false⟩ := by
      rw [rootBody, chars_ofList, chars_ofList]
      decide
    rw [manifestText_eq]
    unfold manifestTurn
    dsimp only
    have hbody : isElementBody rootBody = true := by
      rw [rootBody, chars_ofList]
      decide
    rw [nextTag_declaration, nextTag_body _ (by decide) hbody, htag]
    rfl
  have hrun : Runs manifestTurn (manifestText E algorithm sigUri sigMime covered, [])
      (.ok (covered.map (refOf E algorithm))) :=
    .next hroot (.next (manifestTurn_sigReference _ [] huri hmime) (runs_references []))
  have hloop := loop_of_runs (fun s => s.1.length) (fun s s' h => manifestTurn_drop h) hrun
    (Nat.lt_succ_self _)
  rw [parseManifest_total] at hloop
  have hrefs := Option.some.inj hloop
  simp only [parseManifest, bind_eq_ok, okOr_eq_ok, ensure_eq_ok, pure_eq_ok]
  refine ⟨_, fromUtf8_utf8Encode _, _, hrefs, (), ?_, rfl⟩
  cases covered with
  | nil => exact absurd rfl hne
  | cons object rest => rfl

end Asic

end RefineId
