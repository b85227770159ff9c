/-
  RefineId.Xades — XML signatures over the files of a container.
  ════════════════════════════════════════════════════════════════════════════

  `crates/refineid-doc-sign/src/xades.rs`, and the container of `asic.rs` its signature goes
  into.  A plan holds two texts in canonical form, `ds:SignedInfo` and
  `xades:SignedProperties`; the first digests the second and every file.

  Main results:
    • `escapeAttribute_quoted` : an escaped value stands in an attribute for the value.
    • `escapeText_content`     : escaped content stands for the content.
    • `finish_embeds`          : the finished document holds the signed properties as they were
                                 digested.
-/
import RefineId.AsicWriter
import RefineId.Lib.Xml

namespace RefineId

namespace Xades

open Lib Cades Asic
open Lib.Text (decimal)

/-! ## §1. Names -/

def namespaceDsig : Text := chars "http://www.w3.org/2000/09/xmldsig#"

def namespaceXades : Text := chars "http://uri.etsi.org/01903/v1.3.2#"

def namespaceAsic : Text := chars "http://uri.etsi.org/02918/v1.2.1#"

def canonicalizationExclusive : Text := chars "http://www.w3.org/2001/10/xml-exc-c14n#"

def typeSignedProperties : Text := chars "http://uri.etsi.org/01903#SignedProperties"

def signatureId : Text := chars "SIG-1"

def signedPropertiesId : Text := chars "SIG-1-SIGNEDPROPS"

def signatureValueId : Text := chars "SIG-1-SIGVAL"

/-- `signature_method_uri`. -/
def signatureMethodUri : Cades.SignatureAlgorithm → Text
  | .rsaPkcs1Sha256 => chars "http://www.w3.org/2001/04/xmldsig-more#rsa-sha256"
  | .rsaPkcs1Sha384 => chars "http://www.w3.org/2001/04/xmldsig-more#rsa-sha384"
  | .ecdsaSha256 => chars "http://www.w3.org/2001/04/xmldsig-more#ecdsa-sha256"
  | .ecdsaSha384 => chars "http://www.w3.org/2001/04/xmldsig-more#ecdsa-sha384"

/-- An unsigned number as `{:0width}` prints it. -/
def decimalPadded (width n : Nat) : Text :=
  List.replicate (width - (decimal n).length) '0' ++ decimal n

/-- `xml_date_time`. -/
def xmlDateTime (time : SigningTime) : Text :=
  decimalPadded 4 time.year ++ chars "-" ++ decimalPadded 2 time.month ++ chars "-" ++
    decimalPadded 2 time.day ++ chars "T" ++ decimalPadded 2 time.hour ++ chars ":" ++
    decimalPadded 2 time.minute ++ chars ":" ++ decimalPadded 2 time.second ++ chars "Z"

/-- One character of `escape_text`. -/
def escapeTextChar (c : Char) : Text :=
  if c = '&' then chars "&amp;"
  else if c = '<' then chars "&lt;"
  else if c = '>' then chars "&gt;"
  else if c = '\r' then chars "&#xD;"
  else [c]

/-- `escape_text`. -/
def escapeText (value : Text) : Text := value.flatMap escapeTextChar

/-- `base64::encode`, as it is pushed to a string. -/
def base64 (bytes : Bytes) : Text := asciiText (Base64.encode bytes)

/-! ## §2. The signed parts -/

/-- `XadesError`. -/
inductive XadesError where
  | signingTimeRequired
  | noDataObjects
  deriving Repr, DecidableEq

/-- `SignaturePlan`. -/
structure SignaturePlan where
  signedInfo : Text
  signedProperties : Text
  certificateDer : Bytes
  deriving Repr, DecidableEq

/-- `reference_id`. -/
def referenceId (index : Nat) : Text := signatureId ++ chars "-REF-" ++ decimal index

/-- The lines of a digest: method and value. -/
def digestLines (algorithm : DigestAlgorithm) (digest : Bytes) : Text :=
  chars "<ds:DigestMethod Algorithm=\"" ++ digestMethodUri algorithm ++
    chars "\"></ds:DigestMethod>\n" ++
  (chars "<ds:DigestValue>" ++ base64 digest ++ chars "</ds:DigestValue>\n")

variable (E : Externals)

/-- One turn of the loop of `write_signed_info`.  The name is escaped and not
    percent-encoded. -/
def objectReference (algorithm : DigestAlgorithm) (index : Nat) (object : DataObject) : Text :=
  chars "<ds:Reference Id=\"" ++ referenceId index ++ chars "\" URI=\"" ++
    escapeAttribute object.name ++ chars "\">\n" ++
  digestLines algorithm (algorithm.digest E object.content) ++
  chars "</ds:Reference>\n"

/-- The reference to the signed properties. -/
def propertiesReference (algorithm : DigestAlgorithm) (propertiesDigest : Bytes) : Text :=
  chars "<ds:Reference Id=\"" ++ signatureId ++ chars "-REF-SP\" Type=\"" ++
    typeSignedProperties ++ chars "\" URI=\"#" ++ signedPropertiesId ++ chars "\">\n" ++
  chars "<ds:Transforms>\n" ++
  (chars "<ds:Transform Algorithm=\"" ++ canonicalizationExclusive ++
    chars "\"></ds:Transform>\n") ++
  chars "</ds:Transforms>\n" ++
  digestLines algorithm propertiesDigest ++
  chars "</ds:Reference>\n"

/-- `write_signed_info`. -/
def writeSignedInfo (objects : List DataObject) (parameters : SignerParameters)
    (propertiesDigest : Bytes) : Text :=
  chars "<ds:SignedInfo xmlns:ds=\"" ++ namespaceDsig ++ chars "\">\n" ++
  (chars "<ds:CanonicalizationMethod Algorithm=\"" ++ canonicalizationExclusive ++
    chars "\"></ds:CanonicalizationMethod>\n") ++
  (chars "<ds:SignatureMethod Algorithm=\"" ++ signatureMethodUri parameters.signatureAlgorithm ++
    chars "\"></ds:SignatureMethod>\n") ++
  objects.zipIdx.flatMap (fun (object, index) =>
    objectReference E parameters.digestAlgorithm index object) ++
  propertiesReference parameters.digestAlgorithm propertiesDigest ++
  chars "</ds:SignedInfo>"

/-- One turn of the loop of `write_signed_properties`. -/
def dataObjectFormat (index : Nat) (object : DataObject) : Text :=
  chars "<xades:DataObjectFormat ObjectReference=\"#" ++ referenceId index ++ chars "\">\n" ++
  (chars "<xades:MimeType>" ++ escapeText object.mimeType ++ chars "</xades:MimeType>\n") ++
  chars "</xades:DataObjectFormat>\n"

/-- The digest of the signer's certificate. -/
def certDigest (parameters : SignerParameters) : Text :=
  chars "<xades:SigningCertificateV2>\n<xades:Cert>\n<xades:CertDigest>\n" ++
  (chars "<ds:DigestMethod xmlns:ds=\"" ++ namespaceDsig ++ chars "\" Algorithm=\"" ++
    digestMethodUri parameters.digestAlgorithm ++ chars "\"></ds:DigestMethod>\n") ++
  (chars "<ds:DigestValue xmlns:ds=\"" ++ namespaceDsig ++ chars "\">" ++
    base64 (parameters.digestAlgorithm.digest E parameters.certificate.rawDer) ++
    chars "</ds:DigestValue>\n") ++
  chars "</xades:CertDigest>\n</xades:Cert>\n</xades:SigningCertificateV2>\n"

/-- `write_signed_properties`. -/
def writeSignedProperties (objects : List DataObject) (parameters : SignerParameters)
    (signingTime : SigningTime) : Text :=
  chars "<xades:SignedProperties xmlns:xades=\"" ++ namespaceXades ++ chars "\" Id=\"" ++
    signedPropertiesId ++ chars "\">\n" ++
  chars "<xades:SignedSignatureProperties>\n" ++
  (chars "<xades:SigningTime>" ++ xmlDateTime signingTime ++ chars "</xades:SigningTime>\n") ++
  certDigest E parameters ++
  chars "</xades:SignedSignatureProperties>\n" ++
  chars "<xades:SignedDataObjectProperties>\n" ++
  objects.zipIdx.flatMap (fun (object, index) => dataObjectFormat index object) ++
  chars "</xades:SignedDataObjectProperties>\n" ++
  chars "</xades:SignedProperties>"

/-- `plan`. -/
def plan (objects : List DataObject) (parameters : SignerParameters) :
    Except XadesError SignaturePlan :=
  match parameters.signingTime with
  | none => .error .signingTimeRequired
  | some signingTime =>
    if objects.isEmpty then .error .noDataObjects
    else
      let signedProperties := writeSignedProperties E objects parameters signingTime
      let propertiesDigest := parameters.digestAlgorithm.digest E (utf8Encode signedProperties)
      .ok {
        signedInfo := writeSignedInfo E objects parameters propertiesDigest
        signedProperties
        certificateDer := parameters.certificate.rawDer }

/-! ## §3. The finished document -/

/-- `SignaturePlan::signature_value_element`. -/
def signatureValueElement (signature : Bytes) : Text :=
  chars "<ds:SignatureValue xmlns:ds=\"" ++ namespaceDsig ++ chars "\" Id=\"" ++
    signatureValueId ++ chars "\">" ++ base64 signature ++ chars "</ds:SignatureValue>"

/-- An element on a line of its own around encoded octets. -/
def encapsulated (name : Text) (bytes : Bytes) : Text :=
  chars "<" ++ name ++ chars ">" ++ base64 bytes ++ chars "</" ++ name ++ chars ">\n"

/-- One turn of the loop over the timestamps. -/
def signatureTimeStamp (index : Nat) (token : Bytes) : Text :=
  chars "<xades:SignatureTimeStamp Id=\"" ++ signatureId ++ chars "-TS-" ++ decimal index ++
    chars "\">\n" ++
  (chars "<ds:CanonicalizationMethod Algorithm=\"" ++ canonicalizationExclusive ++
    chars "\"></ds:CanonicalizationMethod>\n") ++
  encapsulated (chars "xades:EncapsulatedTimeStamp") token ++
  chars "</xades:SignatureTimeStamp>\n"

/-- A list in an element of its own, left out when there is nothing in it. -/
def valuesElement (name item : Text) (values : List Bytes) : Text :=
  if values.isEmpty then []
  else chars "<" ++ name ++ chars ">\n" ++ values.flatMap (encapsulated item) ++
    chars "</" ++ name ++ chars ">\n"

/-- The two kinds of revocation answers. -/
def revocationValues (material : ValidationMaterial) : Text :=
  if 0 < material.ocspResponses.length + material.crls.length then
    chars "<xades:RevocationValues>\n" ++
    valuesElement (chars "xades:CRLValues") (chars "xades:EncapsulatedCRLValue") material.crls ++
    valuesElement (chars "xades:OCSPValues") (chars "xades:EncapsulatedOCSPValue")
      material.ocspResponses ++
    chars "</xades:RevocationValues>\n"
  else []

/-- What nothing signs. -/
def unsignedProperties (timestamps : List Bytes) (material : ValidationMaterial) : Text :=
  if timestamps.isEmpty && material.certificates.isEmpty && material.ocspResponses.isEmpty &&
      material.crls.isEmpty then []
  else
    chars "<xades:UnsignedProperties>\n" ++
    chars "<xades:UnsignedSignatureProperties>\n" ++
    timestamps.zipIdx.flatMap (fun (token, index) => signatureTimeStamp index token) ++
    valuesElement (chars "xades:CertificateValues") (chars "xades:EncapsulatedX509Certificate")
      material.certificates ++
    revocationValues material ++
    chars "</xades:UnsignedSignatureProperties>\n" ++
    chars "</xades:UnsignedProperties>\n"

/-- What `finish` writes before the signed properties. -/
def SignaturePlan.upToProperties (plan : SignaturePlan) (signature : Bytes) : Text :=
  chars "<?xml version=\"1.0\" encoding=\"UTF-8\"?>" ++ chars "\n" ++
  (chars "<asic:XAdESSignatures xmlns:asic=\"" ++ namespaceAsic ++ chars "\">\n") ++
  (chars "<ds:Signature xmlns:ds=\"" ++ namespaceDsig ++ chars "\" Id=\"" ++ signatureId ++
    chars "\">\n") ++
  plan.signedInfo ++ chars "\n" ++
  signatureValueElement signature ++ chars "\n" ++
  chars "<ds:KeyInfo>\n<ds:X509Data>\n" ++
  encapsulated (chars "ds:X509Certificate") plan.certificateDer ++
  chars "</ds:X509Data>\n</ds:KeyInfo>\n" ++
  chars "<ds:Object>\n" ++
  (chars "<xades:QualifyingProperties xmlns:xades=\"" ++ namespaceXades ++ chars "\" Target=\"#" ++
    signatureId ++ chars "\">\n")

/-- `SignaturePlan::finish`. -/
def SignaturePlan.finish (plan : SignaturePlan) (signature : Bytes) (timestamps : List Bytes)
    (material : ValidationMaterial) : Bytes :=
  utf8Encode (plan.upToProperties signature ++
    plan.signedProperties ++ chars "\n" ++
    unsignedProperties timestamps material ++
    chars "</xades:QualifyingProperties>\n" ++
    chars "</ds:Object>\n" ++
    chars "</ds:Signature>\n" ++
    chars "</asic:XAdESSignatures>\n")

/-! ## §4. The container -/

def manifestEntryOdf : Text := chars "META-INF/manifest.xml"

def signatureEntryXades : Text := chars "META-INF/signatures0.xml"

/-- `odf_manifest`. -/
def odfManifest (objects : List DataObject) : Bytes :=
  utf8Encode (chars "<?xml version=\"1.0\" encoding=\"UTF-8\"?>" ++
    chars "\n<manifest:manifest xmlns:manifest=\"urn:oasis:names:tc:opendocument:xmlns:manifest:1.0\">\n" ++
    (chars "  <manifest:file-entry manifest:full-path=\"/\" manifest:media-type=\"" ++ mimetypeAsice ++
      chars "\"/>\n") ++
    objects.flatMap (fun object =>
      chars "  <manifest:file-entry manifest:full-path=\"" ++ escapeAttribute object.name ++
        chars "\" manifest:media-type=\"" ++ escapeAttribute object.mimeType ++ chars "\"/>\n") ++
    chars "</manifest:manifest>\n")

/-- What `xades_container` puts in the archive. -/
def xadesEntries (objects : List DataObject) (signatureXml : Bytes) : List ZipEntry :=
  [⟨mimetypeEntry, utf8Encode mimetypeAsice⟩] ++
    objects.map (fun object => ⟨object.name, object.content⟩) ++
    [⟨manifestEntryOdf, odfManifest objects⟩, ⟨signatureEntryXades, signatureXml⟩]

/-- `xades_container`. -/
def xadesContainer (objects : List DataObject) (signatureXml : Bytes) : Option Bytes :=
  writeZip (xadesEntries objects signatureXml)

/-! ## §5. Escapes and literals -/

/-- The characters the escapes are spelled with. -/
def escapeAlphabet : Text := chars "&;#ampltquogx9AD"

theorem escapeChar_standsFor (c : Char) :
    Xml.StandsFor Xml.attributeChar (escapeChar c) c := by
  unfold escapeChar
  split
  next h => exact h ▸ Xml.standsFor_entity (chars "amp") (by decide) (by decide)
  split
  next h => exact h ▸ Xml.standsFor_entity (chars "lt") (by decide) (by decide)
  split
  next h => exact h ▸ Xml.standsFor_entity (chars "quot") (by decide) (by decide)
  split
  next h => exact h ▸ Xml.standsFor_entity (chars "#x9") (by decide) (by decide)
  split
  next h => exact h ▸ Xml.standsFor_entity (chars "#xA") (by decide) (by decide)
  split
  next h => exact h ▸ Xml.standsFor_entity (chars "#xD") (by decide) (by decide)
  next hamp _ _ htab hlf hcr =>
    exact Xml.standsFor_literal hamp (by simp [Xml.attributeChar, htab, hlf, hcr])

theorem escapeTextChar_standsFor (c : Char) :
    Xml.StandsFor Xml.contentChar (escapeTextChar c) c := by
  unfold escapeTextChar
  split
  next h => exact h ▸ Xml.standsFor_entity (chars "amp") (by decide) (by decide)
  split
  next h => exact h ▸ Xml.standsFor_entity (chars "lt") (by decide) (by decide)
  split
  next h => exact h ▸ Xml.standsFor_entity (chars "gt") (by decide) (by decide)
  split
  next h => exact h ▸ Xml.standsFor_entity (chars "#xD") (by decide) (by decide)
  next hamp _ _ hcr => exact Xml.standsFor_literal hamp (by simp [Xml.contentChar, hcr])

theorem mem_escapeAlphabet {x : Char} {text : Text} (hx : x ∈ text)
    (h : text.all escapeAlphabet.contains = true) : x ∈ escapeAlphabet :=
  List.contains_iff_mem.mp (List.all_eq_true.mp h x hx)

/-- What an escape leaves: the character, when it needs none, or letters of the escapes. -/
theorem escapeChar_mem {c x : Char} (h : x ∈ escapeChar c) :
    (x = c ∧ c ≠ '<' ∧ c ≠ '"') ∨ x ∈ escapeAlphabet := by
  have hescape : ∀ {y : Char} {text : Text}, y ∈ text → text.all escapeAlphabet.contains = true →
      (y = c ∧ c ≠ '<' ∧ c ≠ '"') ∨ y ∈ escapeAlphabet :=
    fun hy htext => .inr (mem_escapeAlphabet hy htext)
  unfold escapeChar at h
  split at h
  · exact hescape h (by decide)
  split at h
  · exact hescape h (by decide)
  split at h
  · exact hescape h (by decide)
  split at h
  · exact hescape h (by decide)
  split at h
  · exact hescape h (by decide)
  split at h
  · exact hescape h (by decide)
  next hless hquote _ _ _ => exact .inl ⟨List.mem_singleton.mp h, hless, hquote⟩

theorem escapeTextChar_mem {c x : Char} (h : x ∈ escapeTextChar c) :
    (x = c ∧ c ≠ '<') ∨ x ∈ escapeAlphabet := by
  have hescape : ∀ {y : Char} {text : Text}, y ∈ text → text.all escapeAlphabet.contains = true →
      (y = c ∧ c ≠ '<') ∨ y ∈ escapeAlphabet := fun hy htext => .inr (mem_escapeAlphabet hy htext)
  unfold escapeTextChar at h
  split at h
  · exact hescape h (by decide)
  split at h
  · exact hescape h (by decide)
  split at h
  · exact hescape h (by decide)
  split at h
  · exact hescape h (by decide)
  next hless _ _ => exact .inl ⟨List.mem_singleton.mp h, hless⟩

/-- **An escaped value stands in an attribute for the value.** -/
theorem escapeAttribute_quoted (value : Text) : Xml.Quoted (escapeAttribute value) value where
  quote h := by
    obtain ⟨c, -, hc⟩ := List.mem_flatMap.mp h
    rcases escapeChar_mem hc with ⟨rfl, -, hquote⟩ | hletter
    · exact hquote rfl
    · exact absurd hletter (by decide)
  less h := by
    obtain ⟨c, -, hc⟩ := List.mem_flatMap.mp h
    rcases escapeChar_mem hc with ⟨rfl, hless, -⟩ | hletter
    · exact hless rfl
    · exact absurd hletter (by decide)
  resolves := Xml.resolve_flatMap fun c _ => escapeChar_standsFor c

/-- **Escaped content stands for the content.** -/
theorem escapeText_content (value : Text) : Xml.Content (escapeText value) value where
  less h := by
    obtain ⟨c, -, hc⟩ := List.mem_flatMap.mp h
    rcases escapeTextChar_mem hc with ⟨rfl, hless⟩ | hletter
    · exact hless rfl
    · exact absurd hletter (by decide)
  resolves := Xml.resolve_flatMap fun c _ => escapeTextChar_standsFor c

/-- The escapes neither add nor remove a character that XML forbids. -/
theorem escapeAttribute_xmlChars (value : Text) :
    (∀ c ∈ escapeAttribute value, Xml.isXmlChar c = true) ↔
      ∀ c ∈ value, Xml.isXmlChar c = true := by
  constructor
  · intro h c hc
    by_contra hbad
    -- every character with an escape is an XML character, so this one has none
    have hself : c ∈ escapeChar c := by
      unfold escapeChar
      repeat' split
      all_goals first | exact List.mem_singleton_self c | (subst_vars; exact absurd rfl hbad)
    exact hbad (h c (List.mem_flatMap.mpr ⟨c, hc, hself⟩))
  · intro h x hx
    obtain ⟨c, hc, hxc⟩ := List.mem_flatMap.mp hx
    rcases escapeChar_mem hxc with ⟨rfl, -, -⟩ | hletter
    · exact h x hc
    · have hall : escapeAlphabet.all Xml.isXmlChar = true := by decide
      exact List.all_eq_true.mp hall x hletter

/-- A text of characters that stand for themselves. -/
def Literal (text : Text) : Prop := ∀ c ∈ text, Xml.isLiteral c = true

instance (text : Text) : Decidable (Literal text) :=
  decidable_of_iff (text.all Xml.isLiteral = true) List.all_eq_true

theorem Literal.append {a b : Text} (ha : Literal a) (hb : Literal b) : Literal (a ++ b) := by
  intro c hc
  rcases List.mem_append.mp hc with hc | hc
  · exact ha c hc
  · exact hb c hc

theorem base64_literal (bytes : Bytes) : Literal (base64 bytes) := by
  intro c hc
  obtain ⟨b, hb, rfl⟩ := List.mem_map.mp hc
  rcases Base64.encode_mem hb with rfl | ⟨n, hn, rfl⟩
  · decide
  · have hall : ∀ k : Fin 64, Xml.isLiteral (Char.ofNat (Base64.alphabet k).toNat) = true := by
      decide
    exact hall ⟨n, hn⟩

theorem decimal_literal (n : Nat) : Literal (decimal n) := by
  intro c hc
  have hdigit : c.isDigit = true := Nat.isDigit_of_mem_toDigits (by decide) (by decide) hc
  have hrange : 48 ≤ c.toNat ∧ c.toNat ≤ 57 := by
    simpa [Char.isDigit, Char.le_def, UInt32.le_iff_toNat_le] using hdigit
  have hamp : c ≠ '&' := fun h => absurd hrange.1 (by rw [h]; decide)
  have hless : c ≠ '<' := fun h => absurd hrange.2 (by rw [h]; decide)
  have hquote : c ≠ '"' := fun h => absurd hrange.1 (by rw [h]; decide)
  simp only [Xml.isLiteral, Bool.and_eq_true, decide_eq_true_eq]
  exact ⟨⟨⟨⟨by omega, by omega⟩, hamp⟩, hless⟩, hquote⟩

theorem referenceId_literal (index : Nat) : Literal (referenceId index) :=
  (show Literal (signatureId ++ chars "-REF-") by decide).append (decimal_literal index)

theorem decimalPadded_literal (width n : Nat) : Literal (decimalPadded width n) := by
  refine Literal.append (fun c hc => ?_) (decimal_literal n)
  rw [List.eq_of_mem_replicate hc]
  decide

theorem xmlDateTime_literal (time : SigningTime) : Literal (xmlDateTime time) := by
  have hdash : Literal (chars "-") := by decide
  have ht : Literal (chars "T") := by decide
  have hcolon : Literal (chars ":") := by decide
  have hz : Literal (chars "Z") := by decide
  have hday := ((((decimalPadded_literal 4 time.year).append hdash).append
    (decimalPadded_literal 2 time.month)).append hdash).append (decimalPadded_literal 2 time.day)
  have hhour := ((hday.append ht).append (decimalPadded_literal 2 time.hour)).append hcolon
  have hminute := (hhour.append (decimalPadded_literal 2 time.minute)).append hcolon
  exact (hminute.append (decimalPadded_literal 2 time.second)).append hz

/-- The finished document holds the signed properties as they were digested. -/
theorem finish_embeds (plan : SignaturePlan) (signature : Bytes) (timestamps : List Bytes)
    (material : ValidationMaterial) :
    ∃ before after, plan.finish signature timestamps material =
      before ++ utf8Encode plan.signedProperties ++ after := by
  refine ⟨utf8Encode (plan.upToProperties signature), utf8Encode (chars "\n" ++
    unsignedProperties timestamps material ++ chars "</xades:QualifyingProperties>\n" ++
    chars "</ds:Object>\n" ++ chars "</ds:Signature>\n" ++ chars "</asic:XAdESSignatures>\n"), ?_⟩
  unfold SignaturePlan.finish
  simp only [utf8Encode, List.flatMap_append, List.append_assoc]

end Xades

end RefineId
