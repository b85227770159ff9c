/-
  RefineId.XadesReferences — what a verifier reads of an XML signature.
  ════════════════════════════════════════════════════════════════════════════

  A verifier parses `ds:SignedInfo`, takes the `ds:Reference` elements in order, reads each
  URI as a relative reference and digests the entry of that name.  The name of a data
  object is written to the URI escaped for XML and not percent-encoded, so it names the
  object's entry only if it is a relative reference to itself.

  Main results:
    • `signedInfo_reads`           : the events `ds:SignedInfo` is read as, whatever the names.
    • `signedProperties_reads`     : those of `xades:SignedProperties`, whatever the media types.
    • `planAsicEXades_names_files` : the references name their files exactly if every name
                                     reads as itself.
-/
import RefineId.Document
import RefineId.Lib.Uri
import RefineId.Xades

namespace RefineId

namespace Xades

open Lib Cades Asic Document

/-! ## §1. The events of the signed parts -/

def newline : Text := ['\n']

/-- An element with an attribute and nothing in it, and the line's end. -/
def methodEvents (name : Text) (attrs : List (Text × Text)) : List Xml.Event :=
  [.start name attrs, .stop name, .text newline]

/-- An element around characters, and the line's end. -/
def valueEvents (name : Text) (attrs : List (Text × Text)) (raw content : Text) : List Xml.Event :=
  .start name attrs :: (Xml.textEvents raw content ++ [.stop name, .text newline])

/-- An element over several lines. -/
def blockEvents (name : Text) (attrs : List (Text × Text)) (inner : List Xml.Event) :
    List Xml.Event :=
  .start name attrs :: .text newline :: (inner ++ [.stop name, .text newline])

/-- The root element. -/
def rootEvents (name : Text) (attrs : List (Text × Text)) (inner : List Xml.Event) :
    List Xml.Event :=
  .start name attrs :: .text newline :: (inner ++ [.stop name])

def digestEvents (algorithm : DigestAlgorithm) (digest : Bytes) : List Xml.Event :=
  methodEvents (chars "ds:DigestMethod") [(chars "Algorithm", digestMethodUri algorithm)] ++
    valueEvents (chars "ds:DigestValue") [] (base64 digest) (base64 digest)

variable (E : Externals)

def objectEvents (algorithm : DigestAlgorithm) (index : Nat) (object : DataObject) :
    List Xml.Event :=
  blockEvents (chars "ds:Reference") [(chars "Id", referenceId index), (chars "URI", object.name)]
    (digestEvents algorithm (algorithm.digest E object.content))

def propertiesEvents (algorithm : DigestAlgorithm) (digest : Bytes) : List Xml.Event :=
  blockEvents (chars "ds:Reference")
    [(chars "Id", signatureId ++ chars "-REF-SP"), (chars "Type", typeSignedProperties),
      (chars "URI", '#' :: signedPropertiesId)]
    (blockEvents (chars "ds:Transforms") []
        (methodEvents (chars "ds:Transform") [(chars "Algorithm", canonicalizationExclusive)]) ++
      digestEvents algorithm digest)

/-- What `ds:SignedInfo` is read as. -/
def infoEvents (objects : List DataObject) (parameters : SignerParameters)
    (propertiesDigest : Bytes) : List Xml.Event :=
  rootEvents (chars "ds:SignedInfo") [(chars "xmlns:ds", namespaceDsig)]
    (methodEvents (chars "ds:CanonicalizationMethod")
        [(chars "Algorithm", canonicalizationExclusive)] ++
      (methodEvents (chars "ds:SignatureMethod")
          [(chars "Algorithm", signatureMethodUri parameters.signatureAlgorithm)] ++
        (objects.zipIdx.flatMap (fun (object, index) =>
            objectEvents E parameters.digestAlgorithm index object) ++
          propertiesEvents parameters.digestAlgorithm propertiesDigest)))

def certDigestEvents (parameters : SignerParameters) : List Xml.Event :=
  blockEvents (chars "xades:SigningCertificateV2") [] (blockEvents (chars "xades:Cert") []
    (blockEvents (chars "xades:CertDigest") []
      (methodEvents (chars "ds:DigestMethod") [(chars "xmlns:ds", namespaceDsig),
          (chars "Algorithm", digestMethodUri parameters.digestAlgorithm)] ++
        valueEvents (chars "ds:DigestValue") [(chars "xmlns:ds", namespaceDsig)]
          (base64 (parameters.digestAlgorithm.digest E parameters.certificate.rawDer))
          (base64 (parameters.digestAlgorithm.digest E parameters.certificate.rawDer)))))

def formatEvents (index : Nat) (object : DataObject) : List Xml.Event :=
  blockEvents (chars "xades:DataObjectFormat")
    [(chars "ObjectReference", '#' :: referenceId index)]
    (valueEvents (chars "xades:MimeType") [] (escapeText object.mimeType) object.mimeType)

/-- What `xades:SignedProperties` is read as. -/
def signedPropertiesEvents (objects : List DataObject) (parameters : SignerParameters)
    (signingTime : SigningTime) : List Xml.Event :=
  rootEvents (chars "xades:SignedProperties")
    [(chars "xmlns:xades", namespaceXades), (chars "Id", signedPropertiesId)]
    (blockEvents (chars "xades:SignedSignatureProperties") []
        (valueEvents (chars "xades:SigningTime") [] (xmlDateTime signingTime)
            (xmlDateTime signingTime) ++
          certDigestEvents E parameters) ++
      blockEvents (chars "xades:SignedDataObjectProperties") []
        (objects.zipIdx.flatMap fun (object, index) => formatEvents index object))

theorem methodEvents_reads {raw name : Text} (attrs : List Xml.Attribute)
    (hraw : raw = Xml.startTag name attrs ++ (Xml.endTag name ++ newline))
    (hname : Xml.isName name = true) (hattrs : ∀ a ∈ attrs, a.Ok) :
    Xml.Reads raw (methodEvents name (attrs.map fun a => (a.name, a.value))) := by
  have hstart := Xml.Reads.startText hname hattrs Xml.content_nil
  have hstop := Xml.Reads.stopText hname Xml.content_newline
  rw [List.append_nil] at hstart
  rw [hraw]
  exact hstart.append hstop

theorem valueEvents_reads {raw name tail content : Text} (attrs : List Xml.Attribute)
    (hraw : raw = Xml.startTag name attrs ++ (tail ++ (Xml.endTag name ++ newline)))
    (hname : Xml.isName name = true) (hattrs : ∀ a ∈ attrs, a.Ok)
    (hcontent : Xml.Content tail content) :
    Xml.Reads raw (valueEvents name (attrs.map fun a => (a.name, a.value)) tail content) := by
  have hstart := Xml.Reads.startText hname hattrs hcontent
  have hstop := Xml.Reads.stopText hname Xml.content_newline
  rw [hraw, ← List.append_assoc]
  exact hstart.append hstop

theorem blockEvents_reads {raw name inner : Text} (attrs : List Xml.Attribute)
    {found : List Xml.Event}
    (hraw : raw = Xml.startTag name attrs ++ (newline ++ (inner ++ (Xml.endTag name ++ newline))))
    (hname : Xml.isName name = true) (hattrs : ∀ a ∈ attrs, a.Ok) (hinner : Xml.Reads inner found) :
    Xml.Reads raw (blockEvents name (attrs.map fun a => (a.name, a.value)) found) := by
  have hstart := Xml.Reads.startText hname hattrs Xml.content_newline
  have hstop := Xml.Reads.stopText hname Xml.content_newline
  rw [hraw, ← List.append_assoc]
  exact hstart.append (hinner.append hstop)

theorem rootEvents_reads {raw name inner : Text} (attrs : List Xml.Attribute)
    {found : List Xml.Event}
    (hraw : raw = Xml.startTag name attrs ++ (newline ++ (inner ++ Xml.endTag name)))
    (hname : Xml.isName name = true) (hattrs : ∀ a ∈ attrs, a.Ok) (hinner : Xml.Reads inner found) :
    Xml.Reads raw (rootEvents name (attrs.map fun a => (a.name, a.value)) found) := by
  have hstart := Xml.Reads.startText hname hattrs Xml.content_newline
  have hstop := Xml.Reads.stopText hname Xml.content_nil
  rw [List.append_nil] at hstop
  rw [hraw, ← List.append_assoc]
  exact hstart.append (hinner.append hstop)

/-! ## §2. The signed parts as they are read -/

theorem quoted_ok {name raw value : Text} (hname : Xml.isName name = true)
    (h : Xml.Quoted raw value) : Xml.Attribute.Ok ⟨name, raw, value⟩ :=
  ⟨(Xml.isName_spec hname).2, h⟩

theorem literal_ok {name value : Text} (hname : Xml.isName name = true) (h : Literal value) :
    Xml.Attribute.Ok ⟨name, value, value⟩ :=
  quoted_ok hname (Xml.quoted_literal h)

theorem digestMethodUri_literal (algorithm : DigestAlgorithm) :
    Literal (digestMethodUri algorithm) := by
  cases algorithm <;> decide

/-- The front of a tag: its name and the key of its first attribute. -/
def tagFront (name key : Text) : Text := '<' :: (name ++ ' ' :: (key ++ ['=', '"']))

/-- Between two attributes. -/
def tagNext (key : Text) : Text := '"' :: ' ' :: (key ++ ['=', '"'])

/-- A tag with one attribute, as it is written. -/
theorem startTag_one (name key raw value : Text) :
    Xml.startTag name [⟨key, raw, value⟩] = tagFront name key ++ (raw ++ ['"', '>']) := by
  simp [Xml.startTag, Xml.Attribute.write, tagFront]

theorem startTag_two (name key₁ raw₁ value₁ key₂ raw₂ value₂ : Text) :
    Xml.startTag name [⟨key₁, raw₁, value₁⟩, ⟨key₂, raw₂, value₂⟩] =
      tagFront name key₁ ++ (raw₁ ++ (tagNext key₂ ++ (raw₂ ++ ['"', '>']))) := by
  simp [Xml.startTag, Xml.Attribute.write, tagFront, tagNext]

theorem digestLines_reads (algorithm : DigestAlgorithm) (digest : Bytes) :
    Xml.Reads (digestLines algorithm digest) (digestEvents algorithm digest) := by
  have h1 : chars "<ds:DigestMethod Algorithm=\"" =
      tagFront (chars "ds:DigestMethod") (chars "Algorithm") := by decide
  have h2 : chars "\"></ds:DigestMethod>\n" =
      ['"', '>'] ++ (Xml.endTag (chars "ds:DigestMethod") ++ newline) := by decide
  have h3 : chars "<ds:DigestValue>" = Xml.startTag (chars "ds:DigestValue") [] := by
    decide
  have h4 : chars "</ds:DigestValue>\n" = Xml.endTag (chars "ds:DigestValue") ++ newline := by
    decide
  have hmethod := methodEvents_reads
    [⟨chars "Algorithm", digestMethodUri algorithm, digestMethodUri algorithm⟩] rfl
    (show Xml.isName (chars "ds:DigestMethod") = true by decide)
    (by simpa using literal_ok (by decide) (digestMethodUri_literal algorithm))
  have hvalue := valueEvents_reads [] rfl
    (show Xml.isName (chars "ds:DigestValue") = true by decide) (by simp)
    (Xml.content_literal (base64_literal digest))
  have h := hmethod.append hvalue
  rw [startTag_one] at h
  unfold digestLines
  rw [h1, h2, h3, h4]
  simp only [List.append_assoc] at h ⊢
  exact h

theorem objectReference_reads (algorithm : DigestAlgorithm) (index : Nat) (object : DataObject) :
    Xml.Reads (objectReference E algorithm index object) (objectEvents E algorithm index object) := by
  have h1 : chars "<ds:Reference Id=\"" = tagFront (chars "ds:Reference") (chars "Id") := by
    decide
  have h2 : chars "\" URI=\"" = tagNext (chars "URI") := by decide
  have h3 : chars "\">\n" = ['"', '>'] ++ newline := by decide
  have h4 : chars "</ds:Reference>\n" = Xml.endTag (chars "ds:Reference") ++ newline := by
    decide
  have h := blockEvents_reads
    [⟨chars "Id", referenceId index, referenceId index⟩,
      ⟨chars "URI", escapeAttribute object.name, object.name⟩] rfl
    (show Xml.isName (chars "ds:Reference") = true by decide)
    (by simpa using ⟨literal_ok (by decide) (referenceId_literal index),
      quoted_ok (by decide) (escapeAttribute_quoted object.name)⟩)
    (digestLines_reads algorithm (algorithm.digest E object.content))
  rw [startTag_two] at h
  unfold objectReference
  rw [h1, h2, h3, h4]
  simp only [List.append_assoc] at h ⊢
  exact h

theorem propertiesReference_reads (algorithm : DigestAlgorithm) (digest : Bytes) :
    Xml.Reads (propertiesReference algorithm digest) (propertiesEvents algorithm digest) := by
  have h1 : chars "<ds:Reference Id=\"" ++ signatureId ++ chars "-REF-SP\" Type=\"" ++
      typeSignedProperties ++ chars "\" URI=\"#" ++ signedPropertiesId ++ chars "\">\n" =
      Xml.startTag (chars "ds:Reference")
        [⟨chars "Id", signatureId ++ chars "-REF-SP", signatureId ++ chars "-REF-SP"⟩,
          ⟨chars "Type", typeSignedProperties, typeSignedProperties⟩,
          ⟨chars "URI", '#' :: signedPropertiesId, '#' :: signedPropertiesId⟩] ++ newline := by
    decide
  have h2 : chars "<ds:Transforms>\n" = Xml.startTag (chars "ds:Transforms") [] ++ newline := by
    decide
  have h3 : chars "<ds:Transform Algorithm=\"" ++ canonicalizationExclusive ++
      chars "\"></ds:Transform>\n" = Xml.startTag (chars "ds:Transform")
        [⟨chars "Algorithm", canonicalizationExclusive, canonicalizationExclusive⟩] ++
        (Xml.endTag (chars "ds:Transform") ++ newline) := by decide
  have h4 : chars "</ds:Transforms>\n" = Xml.endTag (chars "ds:Transforms") ++ newline := by
    decide
  have h5 : chars "</ds:Reference>\n" = Xml.endTag (chars "ds:Reference") ++ newline := by
    decide
  have htransform := methodEvents_reads
    [⟨chars "Algorithm", canonicalizationExclusive, canonicalizationExclusive⟩] rfl
    (show Xml.isName (chars "ds:Transform") = true by decide)
    (by simpa using literal_ok (by decide) (by decide))
  have htransforms := blockEvents_reads [] rfl
    (show Xml.isName (chars "ds:Transforms") = true by decide) (by simp) htransform
  have h := blockEvents_reads
    [⟨chars "Id", signatureId ++ chars "-REF-SP", signatureId ++ chars "-REF-SP"⟩,
      ⟨chars "Type", typeSignedProperties, typeSignedProperties⟩,
      ⟨chars "URI", '#' :: signedPropertiesId, '#' :: signedPropertiesId⟩] rfl
    (show Xml.isName (chars "ds:Reference") = true by decide)
    (by simpa using ⟨literal_ok (by decide) (by decide),
      literal_ok (by decide) (by decide), literal_ok (by decide) (by decide)⟩)
    (htransforms.append (digestLines_reads algorithm digest))
  unfold propertiesReference
  rw [h1, h2, h3, h4, h5]
  simp only [List.append_assoc] at h ⊢
  exact h

/-- **What `ds:SignedInfo` is read as**: the names stand in the values of the URIs and nowhere
    else. -/
theorem signedInfo_reads (objects : List DataObject) (parameters : SignerParameters)
    (digest : Bytes) :
    Xml.Reads (writeSignedInfo E objects parameters digest)
      (infoEvents E objects parameters digest) := by
  have h1 : chars "<ds:SignedInfo xmlns:ds=\"" ++ namespaceDsig ++ chars "\">\n" =
      Xml.startTag (chars "ds:SignedInfo") [⟨chars "xmlns:ds", namespaceDsig, namespaceDsig⟩] ++
        newline := by decide
  have h2 : chars "<ds:CanonicalizationMethod Algorithm=\"" ++ canonicalizationExclusive ++
      chars "\"></ds:CanonicalizationMethod>\n" = Xml.startTag (chars "ds:CanonicalizationMethod")
        [⟨chars "Algorithm", canonicalizationExclusive, canonicalizationExclusive⟩] ++
        (Xml.endTag (chars "ds:CanonicalizationMethod") ++ newline) := by decide
  have h3 : ∀ algorithm, chars "<ds:SignatureMethod Algorithm=\"" ++ signatureMethodUri algorithm ++
      chars "\"></ds:SignatureMethod>\n" = Xml.startTag (chars "ds:SignatureMethod")
        [⟨chars "Algorithm", signatureMethodUri algorithm, signatureMethodUri algorithm⟩] ++
        (Xml.endTag (chars "ds:SignatureMethod") ++ newline) := by
    intro algorithm
    cases algorithm <;> decide
  have hmethodLiteral : ∀ algorithm, Literal (signatureMethodUri algorithm) := by
    intro algorithm
    cases algorithm <;> decide
  have h4 : chars "</ds:SignedInfo>" = Xml.endTag (chars "ds:SignedInfo") := by decide
  have hcanonical := methodEvents_reads
    [⟨chars "Algorithm", canonicalizationExclusive, canonicalizationExclusive⟩] rfl
    (show Xml.isName (chars "ds:CanonicalizationMethod") = true by decide)
    (by simpa using literal_ok (by decide) (by decide))
  have hsignature := methodEvents_reads
    [⟨chars "Algorithm", signatureMethodUri parameters.signatureAlgorithm,
      signatureMethodUri parameters.signatureAlgorithm⟩] rfl
    (show Xml.isName (chars "ds:SignatureMethod") = true by decide)
    (by simpa using literal_ok (by decide) (hmethodLiteral parameters.signatureAlgorithm))
  have hobjects := Xml.Reads.flatMap fun (p : DataObject × Nat) (_ : p ∈ objects.zipIdx) =>
    objectReference_reads E parameters.digestAlgorithm p.2 p.1
  have hproperties := propertiesReference_reads parameters.digestAlgorithm digest
  have h := rootEvents_reads [⟨chars "xmlns:ds", namespaceDsig, namespaceDsig⟩] rfl
    (show Xml.isName (chars "ds:SignedInfo") = true by decide)
    (by simpa using literal_ok (by decide) (by decide))
    (hcanonical.append (hsignature.append (hobjects.append hproperties)))
  unfold writeSignedInfo
  rw [h1, h2, h3, h4]
  simp only [List.append_assoc] at h ⊢
  exact h

theorem certDigest_reads (parameters : SignerParameters) :
    Xml.Reads (certDigest E parameters) (certDigestEvents E parameters) := by
  have h1 : chars "<xades:SigningCertificateV2>\n<xades:Cert>\n<xades:CertDigest>\n" =
      Xml.startTag (chars "xades:SigningCertificateV2") [] ++ (newline ++
        (Xml.startTag (chars "xades:Cert") [] ++ (newline ++
          (Xml.startTag (chars "xades:CertDigest") [] ++ newline)))) := by decide
  have h2 : chars "<ds:DigestMethod xmlns:ds=\"" =
      tagFront (chars "ds:DigestMethod") (chars "xmlns:ds") := by decide
  have h3 : chars "\" Algorithm=\"" = tagNext (chars "Algorithm") := by decide
  have h4 : chars "\"></ds:DigestMethod>\n" =
      ['"', '>'] ++ (Xml.endTag (chars "ds:DigestMethod") ++ newline) := by decide
  have h5 : chars "<ds:DigestValue xmlns:ds=\"" ++ namespaceDsig ++ chars "\">" =
      Xml.startTag (chars "ds:DigestValue") [⟨chars "xmlns:ds", namespaceDsig, namespaceDsig⟩] := by
    decide
  have h6 : chars "</ds:DigestValue>\n" = Xml.endTag (chars "ds:DigestValue") ++ newline := by
    decide
  have h7 : chars "</xades:CertDigest>\n</xades:Cert>\n</xades:SigningCertificateV2>\n" =
      Xml.endTag (chars "xades:CertDigest") ++ (newline ++
        (Xml.endTag (chars "xades:Cert") ++ (newline ++
          (Xml.endTag (chars "xades:SigningCertificateV2") ++ newline)))) := by decide
  have hds : Xml.Attribute.Ok ⟨chars "xmlns:ds", namespaceDsig, namespaceDsig⟩ :=
    literal_ok (by decide) (by decide)
  have hmethod := methodEvents_reads
    [⟨chars "xmlns:ds", namespaceDsig, namespaceDsig⟩,
      ⟨chars "Algorithm", digestMethodUri parameters.digestAlgorithm,
        digestMethodUri parameters.digestAlgorithm⟩] rfl
    (show Xml.isName (chars "ds:DigestMethod") = true by decide)
    (by simpa using ⟨hds, literal_ok (by decide)
      (digestMethodUri_literal parameters.digestAlgorithm)⟩)
  have hvalue := valueEvents_reads [⟨chars "xmlns:ds", namespaceDsig, namespaceDsig⟩] rfl
    (show Xml.isName (chars "ds:DigestValue") = true by decide) (by simpa using hds)
    (Xml.content_literal (base64_literal
      (parameters.digestAlgorithm.digest E parameters.certificate.rawDer)))
  have hdigest := blockEvents_reads [] rfl
    (show Xml.isName (chars "xades:CertDigest") = true by decide) (by simp) (hmethod.append hvalue)
  have hcert := blockEvents_reads [] rfl
    (show Xml.isName (chars "xades:Cert") = true by decide) (by simp) hdigest
  have h := blockEvents_reads [] rfl
    (show Xml.isName (chars "xades:SigningCertificateV2") = true by decide) (by simp) hcert
  rw [startTag_two] at h
  unfold certDigest
  rw [h1, h2, h3, h4, h5, h6, h7]
  simp only [List.append_assoc] at h ⊢
  exact h

theorem dataObjectFormat_reads (index : Nat) (object : DataObject) :
    Xml.Reads (dataObjectFormat index object) (formatEvents index object) := by
  have h1 : chars "<xades:DataObjectFormat ObjectReference=\"#" =
      tagFront (chars "xades:DataObjectFormat") (chars "ObjectReference") ++ ['#'] := by
    decide
  have h2 : chars "\">\n" = ['"', '>'] ++ newline := by decide
  have h3 : chars "<xades:MimeType>" = Xml.startTag (chars "xades:MimeType") [] := by decide
  have h4 : chars "</xades:MimeType>\n" = Xml.endTag (chars "xades:MimeType") ++ newline := by
    decide
  have h5 : chars "</xades:DataObjectFormat>\n" =
      Xml.endTag (chars "xades:DataObjectFormat") ++ newline := by decide
  have hid : Literal ('#' :: referenceId index) :=
    (show Literal ['#'] by decide).append (referenceId_literal index)
  have hmime := valueEvents_reads [] rfl
    (show Xml.isName (chars "xades:MimeType") = true by decide) (by simp)
    (escapeText_content object.mimeType)
  have h := blockEvents_reads
    [⟨chars "ObjectReference", '#' :: referenceId index, '#' :: referenceId index⟩] rfl
    (show Xml.isName (chars "xades:DataObjectFormat") = true by decide)
    (by simpa using literal_ok (by decide) hid) hmime
  rw [startTag_one] at h
  unfold dataObjectFormat
  rw [h1, h2, h3, h4, h5]
  simp only [List.append_assoc, List.cons_append, List.nil_append] at h ⊢
  exact h

/-- **What `xades:SignedProperties` is read as**: the media types are the content of their
    elements and nothing else. -/
theorem signedProperties_reads (objects : List DataObject) (parameters : SignerParameters)
    (signingTime : SigningTime) :
    Xml.Reads (writeSignedProperties E objects parameters signingTime)
      (signedPropertiesEvents E objects parameters signingTime) := by
  have h1 : chars "<xades:SignedProperties xmlns:xades=\"" ++ namespaceXades ++ chars "\" Id=\"" ++
      signedPropertiesId ++ chars "\">\n" = Xml.startTag (chars "xades:SignedProperties")
        [⟨chars "xmlns:xades", namespaceXades, namespaceXades⟩,
          ⟨chars "Id", signedPropertiesId, signedPropertiesId⟩] ++ newline := by decide
  have h2 : chars "<xades:SignedSignatureProperties>\n" =
      Xml.startTag (chars "xades:SignedSignatureProperties") [] ++ newline := by decide
  have h3 : chars "<xades:SigningTime>" = Xml.startTag (chars "xades:SigningTime") [] := by
    decide
  have h4 : chars "</xades:SigningTime>\n" = Xml.endTag (chars "xades:SigningTime") ++ newline := by
    decide
  have h5 : chars "</xades:SignedSignatureProperties>\n" =
      Xml.endTag (chars "xades:SignedSignatureProperties") ++ newline := by decide
  have h6 : chars "<xades:SignedDataObjectProperties>\n" =
      Xml.startTag (chars "xades:SignedDataObjectProperties") [] ++ newline := by decide
  have h7 : chars "</xades:SignedDataObjectProperties>\n" =
      Xml.endTag (chars "xades:SignedDataObjectProperties") ++ newline := by decide
  have h8 : chars "</xades:SignedProperties>" = Xml.endTag (chars "xades:SignedProperties") := by
    decide
  have htime := valueEvents_reads [] rfl
    (show Xml.isName (chars "xades:SigningTime") = true by decide) (by simp)
    (Xml.content_literal (xmlDateTime_literal signingTime))
  have hsigner := blockEvents_reads [] rfl
    (show Xml.isName (chars "xades:SignedSignatureProperties") = true by decide) (by simp)
    (htime.append (certDigest_reads E parameters))
  have hformats := Xml.Reads.flatMap fun (p : DataObject × Nat) (_ : p ∈ objects.zipIdx) =>
    dataObjectFormat_reads p.2 p.1
  have hobjects := blockEvents_reads [] rfl
    (show Xml.isName (chars "xades:SignedDataObjectProperties") = true by decide) (by simp) hformats
  have h := rootEvents_reads
    [⟨chars "xmlns:xades", namespaceXades, namespaceXades⟩,
      ⟨chars "Id", signedPropertiesId, signedPropertiesId⟩] rfl
    (show Xml.isName (chars "xades:SignedProperties") = true by decide)
    (by simpa using ⟨literal_ok (by decide) (by decide),
      literal_ok (by decide) (by decide)⟩)
    (hsigner.append hobjects)
  unfold writeSignedProperties
  rw [h1, h2, h3, h4, h5, h6, h7, h8]
  simp only [List.append_assoc] at h ⊢
  exact h

/-! ## §3. Elements -/

def methodTags (name : Text) (attrs : List Text) : List Xml.Tag := [.start name attrs, .stop name]

def blockTags (name : Text) (attrs : List Text) (inner : List Xml.Tag) : List Xml.Tag :=
  .start name attrs :: (inner ++ [.stop name])

def digestTags : List Xml.Tag :=
  methodTags (chars "ds:DigestMethod") [chars "Algorithm"] ++
    methodTags (chars "ds:DigestValue") []

/-- The elements of `ds:SignedInfo` over `n` files: one reference for each, and one for the
    signed properties. -/
def infoTags (n : Nat) : List Xml.Tag :=
  blockTags (chars "ds:SignedInfo") [chars "xmlns:ds"]
    (methodTags (chars "ds:CanonicalizationMethod") [chars "Algorithm"] ++
      (methodTags (chars "ds:SignatureMethod") [chars "Algorithm"] ++
        ((List.replicate n (blockTags (chars "ds:Reference") [chars "Id", chars "URI"]
            digestTags)).flatten ++
          blockTags (chars "ds:Reference") [chars "Id", chars "Type", chars "URI"]
            (blockTags (chars "ds:Transforms") []
                (methodTags (chars "ds:Transform") [chars "Algorithm"]) ++
              digestTags))))

/-- The elements of `xades:SignedProperties` over `n` files. -/
def propertiesTags (n : Nat) : List Xml.Tag :=
  blockTags (chars "xades:SignedProperties") [chars "xmlns:xades", chars "Id"]
    (blockTags (chars "xades:SignedSignatureProperties") []
        (methodTags (chars "xades:SigningTime") [] ++
          blockTags (chars "xades:SigningCertificateV2") [] (blockTags (chars "xades:Cert") []
            (blockTags (chars "xades:CertDigest") []
              (methodTags (chars "ds:DigestMethod") [chars "xmlns:ds", chars "Algorithm"] ++
                methodTags (chars "ds:DigestValue") [chars "xmlns:ds"])))) ++
      blockTags (chars "xades:SignedDataObjectProperties") []
        (List.replicate n (blockTags (chars "xades:DataObjectFormat") [chars "ObjectReference"]
          (methodTags (chars "xades:MimeType") []))).flatten)

theorem tags_method (name : Text) (attrs : List (Text × Text)) :
    Xml.tags (methodEvents name attrs) = methodTags name (attrs.map Prod.fst) := rfl

theorem tags_value (name : Text) (attrs : List (Text × Text)) (raw content : Text) :
    Xml.tags (valueEvents name attrs raw content) = methodTags name (attrs.map Prod.fst) := by
  show .start name (attrs.map Prod.fst) :: Xml.tags (Xml.textEvents raw content ++ _) = _
  rw [Xml.tags_append, Xml.tags_textEvents]
  rfl

theorem tags_block (name : Text) (attrs : List (Text × Text)) (inner : List Xml.Event) :
    Xml.tags (blockEvents name attrs inner) =
      blockTags name (attrs.map Prod.fst) (Xml.tags inner) := by
  show .start name (attrs.map Prod.fst) :: Xml.tags (inner ++ _) = _
  rw [Xml.tags_append]
  rfl

theorem tags_root (name : Text) (attrs : List (Text × Text)) (inner : List Xml.Event) :
    Xml.tags (rootEvents name attrs inner) =
      blockTags name (attrs.map Prod.fst) (Xml.tags inner) := by
  show .start name (attrs.map Prod.fst) :: Xml.tags (inner ++ _) = _
  rw [Xml.tags_append]
  rfl

/-- A list of parts that all have the same elements. -/
theorem tags_flatMap {α : Type} (items : List α) {found : α → List Xml.Event}
    {expected : List Xml.Tag} (h : ∀ a, Xml.tags (found a) = expected) :
    Xml.tags (items.flatMap found) = (List.replicate items.length expected).flatten := by
  induction items with
  | nil => rfl
  | cons a items ih =>
    rw [List.flatMap_cons, Xml.tags_append, h a, ih, List.length_cons, List.replicate_succ,
      List.flatten_cons]

theorem tags_digest (algorithm : DigestAlgorithm) (digest : Bytes) :
    Xml.tags (digestEvents algorithm digest) = digestTags := by
  unfold digestEvents
  rw [Xml.tags_append, tags_method, tags_value]
  rfl

/-- **No name adds or alters an element of `ds:SignedInfo`.** -/
theorem tags_info (objects : List DataObject) (parameters : SignerParameters) (digest : Bytes) :
    Xml.tags (infoEvents E objects parameters digest) = infoTags objects.length := by
  have hobject : ∀ p : DataObject × Nat,
      Xml.tags (objectEvents E parameters.digestAlgorithm p.2 p.1) =
        blockTags (chars "ds:Reference") [chars "Id", chars "URI"] digestTags := by
    intro p
    unfold objectEvents
    rw [tags_block, tags_digest]
    rfl
  have hobjects := tags_flatMap objects.zipIdx hobject
  rw [List.length_zipIdx] at hobjects
  unfold infoEvents propertiesEvents
  rw [tags_root, Xml.tags_append, Xml.tags_append, Xml.tags_append, tags_method, tags_method,
    hobjects, tags_block, Xml.tags_append, tags_block, tags_method, tags_digest]
  rfl

/-- **No media type adds or alters an element of `xades:SignedProperties`.** -/
theorem tags_signedProperties (objects : List DataObject) (parameters : SignerParameters)
    (signingTime : SigningTime) :
    Xml.tags (signedPropertiesEvents E objects parameters signingTime) =
      propertiesTags objects.length := by
  have hformat : ∀ p : DataObject × Nat, Xml.tags (formatEvents p.2 p.1) =
      blockTags (chars "xades:DataObjectFormat") [chars "ObjectReference"]
        (methodTags (chars "xades:MimeType") []) := by
    intro p
    unfold formatEvents
    rw [tags_block, tags_value]
    rfl
  have hformats := tags_flatMap objects.zipIdx hformat
  rw [List.length_zipIdx] at hformats
  unfold signedPropertiesEvents certDigestEvents
  rw [tags_root, Xml.tags_append, tags_block, Xml.tags_append, tags_value, tags_block, tags_block,
    tags_block, Xml.tags_append, tags_method, tags_value, tags_block, hformats]
  rfl

theorem balanced_method (name : Text) (attrs : List (Text × Text)) :
    Xml.Balanced (methodEvents name attrs) :=
  (Xml.Balanced.nil.element name attrs).append (Xml.Balanced.text newline)

theorem balanced_value (name : Text) (attrs : List (Text × Text)) (raw content : Text) :
    Xml.Balanced (valueEvents name attrs raw content) := by
  have h := ((Xml.Balanced.textEvents raw content).element name attrs).append
    (Xml.Balanced.text newline)
  simpa [valueEvents] using h

theorem balanced_block {inner : List Xml.Event} (h : Xml.Balanced inner) (name : Text)
    (attrs : List (Text × Text)) : Xml.Balanced (blockEvents name attrs inner) := by
  have h := (((Xml.Balanced.text newline).append h).element name attrs).append
    (Xml.Balanced.text newline)
  simpa [blockEvents] using h

theorem balanced_digest (algorithm : DigestAlgorithm) (digest : Bytes) :
    Xml.Balanced (digestEvents algorithm digest) :=
  (balanced_method _ _).append (balanced_value _ _ _ _)

/-- The tags of `ds:SignedInfo` nest. -/
theorem wellFormed_info (objects : List DataObject) (parameters : SignerParameters)
    (digest : Bytes) : Xml.wellFormed (infoEvents E objects parameters digest) = true := by
  have hobjects : Xml.Balanced (objects.zipIdx.flatMap fun p =>
      objectEvents E parameters.digestAlgorithm p.2 p.1) :=
    Xml.Balanced.flatMap fun p _ => balanced_block (balanced_digest _ _) _ _
  have hproperties : Xml.Balanced (propertiesEvents parameters.digestAlgorithm digest) :=
    balanced_block ((balanced_block (balanced_method _ _) _ _).append (balanced_digest _ _)) _ _
  have h := (Xml.Balanced.text newline).append ((balanced_method
    (chars "ds:CanonicalizationMethod") [(chars "Algorithm", canonicalizationExclusive)]).append
      ((balanced_method (chars "ds:SignatureMethod")
        [(chars "Algorithm", signatureMethodUri parameters.signatureAlgorithm)]).append
          (hobjects.append hproperties)))
  exact h.wellFormed (chars "ds:SignedInfo") [(chars "xmlns:ds", namespaceDsig)]

/-! ## §4. References -/

/-- A `ds:Reference` as a verifier reads it. -/
structure Reference where
  uri : Option Text
  digestMethod : Option Text
  digestValue : Text
  deriving Repr, DecidableEq

/-- The algorithm of the first `ds:DigestMethod` among events. -/
def digestMethodOf : List Xml.Event → Option Text
  | [] => none
  | .start name attrs :: rest =>
    if name = chars "ds:DigestMethod" then attrs.lookup (chars "Algorithm")
    else digestMethodOf rest
  | _ :: rest => digestMethodOf rest

/-- The characters of the first `ds:DigestValue` among events. -/
def digestValueOf : List Xml.Event → Text
  | [] => []
  | .start name _ :: rest =>
    if name = chars "ds:DigestValue" then
      Xml.content (rest.takeWhile (· ≠ .stop (chars "ds:DigestValue")))
    else digestValueOf rest
  | _ :: rest => digestValueOf rest

/-- A reference, from its attributes and what stands up to its end tag. -/
def readReference (attrs : List (Text × Text)) (inner : List Xml.Event) : Reference where
  uri := attrs.lookup (chars "URI")
  digestMethod := digestMethodOf inner
  digestValue := digestValueOf inner

/-- The references of a document, in order. -/
def readReferences : List Xml.Event → List Reference
  | [] => []
  | .start name attrs :: rest =>
    if name = chars "ds:Reference" then
      readReference attrs (rest.takeWhile (· ≠ .stop (chars "ds:Reference"))) :: readReferences rest
    else readReferences rest
  | _ :: rest => readReferences rest

/-- An event that neither opens nor closes a reference. -/
def plainEvent : Xml.Event → Bool
  | .start name _ => name ≠ chars "ds:Reference"
  | .stop name => name ≠ chars "ds:Reference"
  | .text _ => true

theorem readReferences_skip {es : List Xml.Event} (h : ∀ e ∈ es, plainEvent e = true)
    (rest : List Xml.Event) : readReferences (es ++ rest) = readReferences rest := by
  induction es with
  | nil => rfl
  | cons e es ih =>
    have hrest := ih fun e' he' => h e' (List.mem_cons_of_mem _ he')
    have he := h e List.mem_cons_self
    cases e with
    | start name attrs =>
      have hname : name ≠ chars "ds:Reference" := by simpa [plainEvent] using he
      rw [List.cons_append, readReferences, if_neg hname, hrest]
    | stop name => exact hrest
    | text content => exact hrest

/-- **A reference in a block of its own is read with what is in the block.** -/
theorem readReferences_block {inner : List Xml.Event} (h : ∀ e ∈ inner, plainEvent e = true)
    (attrs : List (Text × Text)) (rest : List Xml.Event) :
    readReferences (blockEvents (chars "ds:Reference") attrs inner ++ rest) =
      readReference attrs (.text newline :: inner) :: readReferences rest := by
  have hstop : ∀ e ∈ Xml.Event.text newline :: inner,
      decide (e ≠ .stop (chars "ds:Reference")) = true := by
    intro e he
    rcases List.mem_cons.mp he with rfl | he
    · simp
    · have hplain := h e he
      cases e with
      | stop name => simpa [plainEvent] using hplain
      | start name attrs => simp
      | text content => simp
  have htake : (Xml.Event.text newline :: (inner ++ ([.stop (chars "ds:Reference"),
      .text newline] ++ rest))).takeWhile (· ≠ .stop (chars "ds:Reference")) =
      .text newline :: inner := by
    rw [← List.cons_append, List.takeWhile_append_of_pos hstop]
    simp
  have hskip : readReferences (inner ++ ([.stop (chars "ds:Reference"), .text newline] ++ rest)) =
      readReferences rest := readReferences_skip h _
  unfold blockEvents
  rw [List.cons_append, List.cons_append, List.append_assoc, readReferences, if_pos rfl, htake]
  show _ :: readReferences (inner ++ _) = _
  rw [hskip]

theorem plain_textEvents (raw content : Text) :
    ∀ e ∈ Xml.textEvents raw content, plainEvent e = true := by
  unfold Xml.textEvents
  split <;> simp [plainEvent]

theorem plain_method {name : Text} (hname : name ≠ chars "ds:Reference")
    (attrs : List (Text × Text)) : ∀ e ∈ methodEvents name attrs, plainEvent e = true := by
  simp [methodEvents, plainEvent, hname]

theorem plain_digest (algorithm : DigestAlgorithm) (digest : Bytes) :
    ∀ e ∈ digestEvents algorithm digest, plainEvent e = true := by
  intro e he
  rcases List.mem_append.mp he with he | he
  · exact plain_method (by decide) _ e he
  · have hvalue : chars "ds:DigestValue" ≠ chars "ds:Reference" := by decide
    rw [valueEvents, List.mem_cons, List.mem_append] at he
    rcases he with rfl | he | he
    · simp [plainEvent, hvalue]
    · exact plain_textEvents _ _ e he
    · have hends : ∀ e ∈ [Xml.Event.stop (chars "ds:DigestValue"), .text newline],
          plainEvent e = true := by decide
      exact hends e he

theorem digestValueOf_value (digest : Bytes) (rest : List Xml.Event) :
    digestValueOf (valueEvents (chars "ds:DigestValue") [] (base64 digest) (base64 digest) ++ rest) =
      base64 digest := by
  have hstop : ∀ e ∈ Xml.textEvents (base64 digest) (base64 digest),
      decide (e ≠ .stop (chars "ds:DigestValue")) = true := by
    unfold Xml.textEvents
    split <;> simp
  unfold valueEvents
  rw [List.cons_append, List.append_assoc, digestValueOf, if_pos rfl,
    List.takeWhile_append_of_pos hstop]
  simp [Xml.content_textEvents]

/-- What a verifier reads of the digest of a reference. -/
theorem digestEvents_read (algorithm : DigestAlgorithm) (digest : Bytes) :
    digestMethodOf (digestEvents algorithm digest) = some (digestMethodUri algorithm) ∧
      digestValueOf (digestEvents algorithm digest) = base64 digest := by
  have hname : chars "ds:DigestMethod" ≠ chars "ds:DigestValue" := by decide
  constructor
  · show (if chars "ds:DigestMethod" = chars "ds:DigestMethod" then
      List.lookup (chars "Algorithm") [(chars "Algorithm", digestMethodUri algorithm)]
      else _) = _
    rw [if_pos rfl]
    simp
  · unfold digestEvents methodEvents
    rw [List.cons_append, digestValueOf, if_neg hname]
    have hvalue := digestValueOf_value digest []
    rw [List.append_nil] at hvalue
    exact hvalue

/-- The reference to an object, as it is read. -/
def objectReferenceOf (algorithm : DigestAlgorithm) (object : DataObject) : Reference where
  uri := some object.name
  digestMethod := some (digestMethodUri algorithm)
  digestValue := base64 (algorithm.digest E object.content)

/-- The reference to the signed properties, as it is read. -/
def propertiesReferenceOf (algorithm : DigestAlgorithm) (digest : Bytes) : Reference where
  uri := some ('#' :: signedPropertiesId)
  digestMethod := some (digestMethodUri algorithm)
  digestValue := base64 digest

theorem readReferences_object (algorithm : DigestAlgorithm) (index : Nat) (object : DataObject)
    (rest : List Xml.Event) :
    readReferences (objectEvents E algorithm index object ++ rest) =
      objectReferenceOf E algorithm object :: readReferences rest := by
  obtain ⟨hmethod, hvalue⟩ := digestEvents_read algorithm (algorithm.digest E object.content)
  unfold objectEvents
  rw [readReferences_block (plain_digest _ _)]
  congr 1
  have huri : [(chars "Id", referenceId index), (chars "URI", object.name)].lookup (chars "URI") =
      some object.name := by
    have hid : (chars "URI" == chars "Id") = false := by decide
    simp [List.lookup, hid]
  simp only [readReference, objectReferenceOf, digestMethodOf, digestValueOf, huri, hmethod, hvalue]

theorem readReferences_properties (algorithm : DigestAlgorithm) (digest : Bytes)
    (rest : List Xml.Event) :
    readReferences (propertiesEvents algorithm digest ++ rest) =
      propertiesReferenceOf algorithm digest :: readReferences rest := by
  obtain ⟨hmethod, hvalue⟩ := digestEvents_read algorithm digest
  have hplain : ∀ e ∈ blockEvents (chars "ds:Transforms") [] (methodEvents (chars "ds:Transform")
      [(chars "Algorithm", canonicalizationExclusive)]), plainEvent e = true := by
    decide
  have hmethodSkip : ∀ es, digestMethodOf (.text newline :: (blockEvents (chars "ds:Transforms") []
      (methodEvents (chars "ds:Transform") [(chars "Algorithm", canonicalizationExclusive)]) ++
      es)) = digestMethodOf es := fun _ => rfl
  have hvalueSkip : ∀ es, digestValueOf (.text newline :: (blockEvents (chars "ds:Transforms") []
      (methodEvents (chars "ds:Transform") [(chars "Algorithm", canonicalizationExclusive)]) ++
      es)) = digestValueOf es := fun _ => rfl
  unfold propertiesEvents
  rw [readReferences_block (fun e he => (List.mem_append.mp he).elim (hplain e)
    (plain_digest _ _ e))]
  congr 1
  have huri : [(chars "Id", signatureId ++ chars "-REF-SP"), (chars "Type", typeSignedProperties),
      (chars "URI", '#' :: signedPropertiesId)].lookup (chars "URI") =
      some ('#' :: signedPropertiesId) := by decide
  simp only [readReference, propertiesReferenceOf, hmethodSkip, hvalueSkip, huri, hmethod, hvalue]

/-- **The references a verifier reads: one for each object, in order, and the last one for the
    signed properties.** -/
theorem readReferences_info (objects : List DataObject) (parameters : SignerParameters)
    (digest : Bytes) :
    readReferences (infoEvents E objects parameters digest) =
      objects.map (objectReferenceOf E parameters.digestAlgorithm) ++
        [propertiesReferenceOf parameters.digestAlgorithm digest] := by
  have hobjects : ∀ (items : List (DataObject × Nat)) rest,
      readReferences (items.flatMap (fun p =>
        objectEvents E parameters.digestAlgorithm p.2 p.1) ++ rest) =
      items.map (fun p => objectReferenceOf E parameters.digestAlgorithm p.1) ++
        readReferences rest := by
    intro items rest
    induction items with
    | nil => rfl
    | cons p items ih =>
      rw [List.flatMap_cons, List.append_assoc, readReferences_object, ih]
      rfl
  have hroot : chars "ds:SignedInfo" ≠ chars "ds:Reference" := by decide
  unfold infoEvents rootEvents
  rw [readReferences, if_neg hroot]
  show readReferences (_ ++ _) = _
  rw [List.append_assoc, readReferences_skip (plain_method (by decide) _), List.append_assoc,
    readReferences_skip (plain_method (by decide) _), List.append_assoc]
  refine (hobjects _ _).trans ?_
  rw [readReferences_properties]
  congr 1
  have hfst : objects.zipIdx.map Prod.fst = objects := List.zipIdx_map_fst 0 objects
  nth_rewrite 2 [← hfst]
  rw [List.map_map]
  rfl

/-! ## §5. References name files -/

/-- A text of characters that XML can carry. -/
def XmlText (text : Text) : Prop := ∀ c ∈ text, Xml.isXmlChar c = true

instance (text : Text) : Decidable (XmlText text) :=
  decidable_of_iff (text.all Xml.isXmlChar = true) List.all_eq_true

/-- The names that need no encoding: they refer to themselves, and XML can carry them. -/
def ReadsAsItself (name : Text) : Prop := Uri.plainReference name = true ∧ XmlText name

instance (name : Text) : Decidable (ReadsAsItself name) :=
  inferInstanceAs (Decidable (_ ∧ _))

/-- A reference names the entry of an object and digests its content. -/
structure NamesFile (algorithm : DigestAlgorithm) (reference : Reference) (object : DataObject) :
    Prop where
  uri : ∃ uri, reference.uri = some uri ∧ Uri.readRelative uri = some (utf8Encode object.name)
  method : reference.digestMethod = some (digestMethodUri algorithm)
  value : reference.digestValue = base64 (algorithm.digest E object.content)

/-- A reference points to the signed properties and digests them. -/
structure CoversProperties (algorithm : DigestAlgorithm) (reference : Reference)
    (plan : SignaturePlan) : Prop where
  uri : reference.uri = some ('#' :: signedPropertiesId)
  method : reference.digestMethod = some (digestMethodUri algorithm)
  value : reference.digestValue = base64 (algorithm.digest E (utf8Encode plan.signedProperties))

/-- What a signature over the files of a container has to say to a verifier. -/
structure ReferencesNameFiles (inflate : Bytes → Nat → Except String Bytes)
    (objects : List DataObject) (algorithm : DigestAlgorithm) (plan : SignaturePlan) : Prop where
  /-- `ds:SignedInfo` is XML with a reference for each object in order and one more. -/
  info : ∃ found references properties, Xml.parse plan.signedInfo = some found ∧
    Xml.tags found = infoTags objects.length ∧
    readReferences found = references ++ [properties] ∧
    List.Forall₂ (NamesFile E algorithm) references objects ∧
    CoversProperties E algorithm properties plan
  /-- No media type adds or alters an element of the signed properties. -/
  elements : ∃ found, Xml.events plan.signedProperties = some found ∧
    Xml.tags found = propertiesTags objects.length
  /-- The container has the objects under their names, and the digested bytes in its
      signature. -/
  container : ∀ signature timestamps material archive,
    finishAsicEXades plan objects signature timestamps material = .ok archive →
      ∃ before after, localEntries inflate archive =
        xadesEntries objects (before ++ utf8Encode plan.signedProperties ++ after)

variable (inflate : Bytes → Nat → Except String Bytes)

theorem xmlText_append {a b : Text} : XmlText (a ++ b) ↔ XmlText a ∧ XmlText b :=
  List.forall_mem_append

theorem xmlText_literal {text : Text} (h : Literal text) : XmlText text :=
  fun c hc => (Xml.isLiteral_spec (h c hc)).1

theorem digestLines_xmlText (algorithm : DigestAlgorithm) (digest : Bytes) :
    XmlText (digestLines algorithm digest) := by
  have h1 : XmlText (chars "<ds:DigestMethod Algorithm=\"") := by decide
  have h2 : XmlText (chars "\"></ds:DigestMethod>\n") := by decide
  have h3 : XmlText (chars "<ds:DigestValue>") := by decide
  have h4 : XmlText (chars "</ds:DigestValue>\n") := by decide
  simp only [digestLines, xmlText_append]
  exact ⟨⟨⟨h1, xmlText_literal (digestMethodUri_literal _)⟩, h2⟩,
    ⟨h3, xmlText_literal (base64_literal _)⟩, h4⟩

theorem objectReference_xmlText (algorithm : DigestAlgorithm) (index : Nat) (object : DataObject) :
    XmlText (objectReference E algorithm index object) ↔ XmlText object.name := by
  have h1 : XmlText (chars "<ds:Reference Id=\"") := by decide
  have h2 : XmlText (chars "\" URI=\"") := by decide
  have h3 : XmlText (chars "\">\n") := by decide
  have h4 : XmlText (chars "</ds:Reference>\n") := by decide
  have hname : XmlText (escapeAttribute object.name) ↔ XmlText object.name :=
    escapeAttribute_xmlChars object.name
  simp only [objectReference, xmlText_append, hname]
  constructor
  · intro h
    exact h.1.1.1.2
  · intro h
    exact ⟨⟨⟨⟨⟨⟨h1, xmlText_literal (referenceId_literal index)⟩, h2⟩, h⟩, h3⟩,
      digestLines_xmlText _ _⟩, h4⟩

theorem propertiesReference_xmlText (algorithm : DigestAlgorithm) (digest : Bytes) :
    XmlText (propertiesReference algorithm digest) := by
  have hfront : XmlText (chars "<ds:Reference Id=\"" ++ signatureId ++ chars "-REF-SP\" Type=\"" ++
      typeSignedProperties ++ chars "\" URI=\"#" ++ signedPropertiesId ++ chars "\">\n" ++
      chars "<ds:Transforms>\n" ++ (chars "<ds:Transform Algorithm=\"" ++
      canonicalizationExclusive ++ chars "\"></ds:Transform>\n") ++ chars "</ds:Transforms>\n") := by
    decide +kernel
  have hback : XmlText (chars "</ds:Reference>\n") := by decide
  exact xmlText_append.mpr ⟨xmlText_append.mpr ⟨hfront, digestLines_xmlText _ _⟩, hback⟩

/-- The text around the names is XML, so the names decide. -/
theorem signedInfo_xmlText (objects : List DataObject) (parameters : SignerParameters)
    (digest : Bytes) :
    XmlText (writeSignedInfo E objects parameters digest) ↔ ∀ o ∈ objects, XmlText o.name := by
  have h1 : XmlText (chars "<ds:SignedInfo xmlns:ds=\"" ++ namespaceDsig ++ chars "\">\n" ++
      (chars "<ds:CanonicalizationMethod Algorithm=\"" ++ canonicalizationExclusive ++
        chars "\"></ds:CanonicalizationMethod>\n")) := by decide
  have h2 : XmlText (chars "<ds:SignatureMethod Algorithm=\"" ++
      signatureMethodUri parameters.signatureAlgorithm ++
      chars "\"></ds:SignatureMethod>\n") := by
    cases parameters.signatureAlgorithm <;> decide
  have h3 : XmlText (chars "</ds:SignedInfo>") := by decide
  have hobjects : XmlText (objects.zipIdx.flatMap fun p =>
      objectReference E parameters.digestAlgorithm p.2 p.1) ↔ ∀ o ∈ objects, XmlText o.name := by
    constructor
    · intro h o ho
      obtain ⟨i, hi⟩ := List.mem_iff_getElem?.mp ho
      refine (objectReference_xmlText E parameters.digestAlgorithm i o).mp fun c hc => ?_
      exact h c (List.mem_flatMap.mpr ⟨(o, i), List.mk_mem_zipIdx_iff_getElem?.mpr hi, hc⟩)
    · intro h c hc
      obtain ⟨p, hp, hc⟩ := List.mem_flatMap.mp hc
      exact (objectReference_xmlText E parameters.digestAlgorithm p.2 p.1).mpr
        (h p.1 (List.fst_mem_of_mem_zipIdx hp)) c hc
  unfold writeSignedInfo
  rw [xmlText_append, xmlText_append, xmlText_append, xmlText_append]
  constructor
  · intro h
    exact hobjects.mp h.1.1.2
  · intro h
    exact ⟨⟨⟨⟨h1, h2⟩, hobjects.mpr h⟩, propertiesReference_xmlText _ _⟩, h3⟩

/-- What is parsed of `ds:SignedInfo`, if anything is. -/
theorem parse_signedInfo (objects : List DataObject) (parameters : SignerParameters)
    (digest : Bytes) {found : List Xml.Event} :
    Xml.parse (writeSignedInfo E objects parameters digest) = some found ↔
      (∀ o ∈ objects, XmlText o.name) ∧ found = infoEvents E objects parameters digest := by
  have hreads := signedInfo_reads E objects parameters digest
  have hnested := wellFormed_info E objects parameters digest
  rw [← signedInfo_xmlText E objects parameters digest]
  constructor
  · intro h
    have hchars : XmlText (writeSignedInfo E objects parameters digest) := by
      intro c hc
      by_contra hbad
      rw [Xml.parse_none hc (by simpa using hbad)] at h
      cases h
    rw [hreads.parse hchars hnested] at h
    injection h with h
    exact ⟨hchars, h.symm⟩
  · intro hx
    obtain ⟨hchars, rfl⟩ := hx
    exact hreads.parse hchars hnested

theorem namesFile_object (algorithm : DigestAlgorithm) (object : DataObject) :
    NamesFile E algorithm (objectReferenceOf E algorithm object) object ↔
      Uri.plainReference object.name = true := by
  rw [← Uri.readRelative_eq_self_iff]
  constructor
  · intro hx
    obtain ⟨⟨uri, huri, hread⟩, -, -⟩ := hx
    injection huri with huri
    rwa [← huri] at hread
  · intro h
    exact ⟨⟨object.name, rfl, h⟩, rfl, rfl⟩

/-- What `plan` accepted, and what it made of it. -/
theorem planAsicEXades_spec {objects : List DataObject} {parameters : SignerParameters}
    {plan : SignaturePlan} (h : planAsicEXades E objects parameters = .ok plan) :
    ∃ signingTime, plan.signedProperties = writeSignedProperties E objects parameters signingTime ∧
      plan.signedInfo = writeSignedInfo E objects parameters
        (parameters.digestAlgorithm.digest E (utf8Encode plan.signedProperties)) := by
  simp only [planAsicEXades, bind_eq_ok, mapError_eq_ok_iff] at h
  obtain ⟨_, -, _, -, hplan⟩ := h
  unfold Xades.plan at hplan
  split at hplan
  · cases hplan
  next signingTime htime =>
    split at hplan
    · cases hplan
    · injection hplan with hplan
      exact ⟨signingTime, by rw [← hplan], by rw [← hplan]⟩

/-- The container holds what it was given, the digested bytes among it. -/
theorem finishAsicEXades_entries {plan : SignaturePlan} {objects : List DataObject}
    {signature : Bytes} {timestamps : List Bytes} {material : ValidationMaterial} {archive : Bytes}
    (h : finishAsicEXades plan objects signature timestamps material = .ok archive) :
    ∃ before after, localEntries inflate archive =
      xadesEntries objects (before ++ utf8Encode plan.signedProperties ++ after) := by
  have hwritten := okOr_eq_ok.mp h
  obtain ⟨before, after, hembeds⟩ := finish_embeds plan signature timestamps material
  refine ⟨before, after, ?_⟩
  rw [← hembeds]
  exact localEntries_finish inflate hwritten

/-- The references of what `plan` makes name their files exactly if the names read as
    themselves. -/
theorem referencesNameFiles_iff {objects : List DataObject} {parameters : SignerParameters}
    {plan : SignaturePlan} (h : planAsicEXades E objects parameters = .ok plan) :
    ReferencesNameFiles E inflate objects parameters.digestAlgorithm plan ↔
      ∀ o ∈ objects, ReadsAsItself o.name := by
  obtain ⟨signingTime, hproperties, hinfo⟩ := planAsicEXades_spec E h
  constructor
  · intro hall
    obtain ⟨found, references, last, hparse, -, hread, hfiles, -⟩ := hall.info
    rw [hinfo, parse_signedInfo] at hparse
    obtain ⟨hchars, rfl⟩ := hparse
    rw [readReferences_info] at hread
    obtain ⟨hread, -⟩ := List.append_inj' hread rfl
    rw [← hread, List.forall₂_map_left_iff, List.forall₂_same] at hfiles
    intro o ho
    exact ⟨(namesFile_object E _ o).mp (hfiles o ho), hchars o ho⟩
  · intro hall
    refine ⟨?_, ?_, fun signature timestamps material archive => finishAsicEXades_entries inflate⟩
    · refine ⟨infoEvents E objects parameters _, objects.map _, _,
        hinfo ▸ (parse_signedInfo E objects parameters _).mpr ⟨fun o ho => (hall o ho).2, rfl⟩,
        tags_info E objects parameters _, readReferences_info E objects parameters _, ?_,
        ⟨rfl, rfl, rfl⟩⟩
      rw [List.forall₂_map_left_iff, List.forall₂_same]
      intro o ho
      exact (namesFile_object E _ o).mpr (hall o ho).1
    · refine ⟨_, hproperties ▸ (signedProperties_reads E objects parameters signingTime).events,
        tags_signedProperties E objects parameters signingTime⟩

/-- **The references of an accepted plan name their files exactly if every name reads as
    itself**: no `#` and no `?` in it, no colon before its first slash, no `%` before two
    hexadecimal digits, and no character XML cannot carry. -/
theorem planAsicEXades_names_files {objects : List DataObject} {parameters : SignerParameters}
    {plan : SignaturePlan} (h : planAsicEXades E objects parameters = .ok plan) :
    ReferencesNameFiles E inflate objects parameters.digestAlgorithm plan ↔
      ∀ o ∈ objects, ReadsAsItself o.name :=
  referencesNameFiles_iff E inflate h

/-- The signed properties over one plain text. -/
def sampleProperties : Bytes :=
  match sampleSigner with
  | none => []
  | some parameters => utf8Encode (writeSignedProperties sampleExternals
      [⟨chars "a.txt", chars "text/plain", utf8Encode (chars "pay 1")⟩] parameters
      ⟨2026, 8, 3, 12, 34, 56⟩)

/-- The SHA-256 digests of the file, the certificate and the signed properties. -/
def xadesExternals : Externals :=
  Externals.sample []
    [(utf8Encode (chars "pay 1"),
        octets 32 0x077d8a1f31926bef4f3dd6b9dd1ea3ad288a01475b60bc5e5f42c3924d89779a),
      (messageSlice 58 258,
        octets 32 0xe6e84c74c13864ae1fd8d0e6bdc40c813f43e942cbd9f664b47461b106b5a3a2),
      (sampleProperties, octets 32 0xc5bdf50fcd2083c91d448ee51a6af132d8eb93efc32c23da73fd413a9f25108b)] []

/-- A plan over one plain text of a name. -/
def samplePlan (name : Text) : Option (List DataObject × SignerParameters × SignaturePlan) := do
  let parameters ← sampleSigner
  let objects : List DataObject := [⟨name, chars "text/plain", utf8Encode (chars "pay 1")⟩]
  let plan ← (planAsicEXades xadesExternals objects parameters).toOption
  return (objects, parameters, plan)

theorem samplePlan_spec {name : Text} (h : (samplePlan name).isSome = true) :
    ∃ objects parameters plan, samplePlan name = some (objects, parameters, plan) ∧
      objects.map DataObject.name = [name] ∧
      planAsicEXades xadesExternals objects parameters = .ok plan := by
  obtain ⟨⟨objects, parameters, plan⟩, heq⟩ := Option.isSome_iff_exists.mp h
  have hrun := heq
  simp only [samplePlan, Option.bind_eq_bind, Option.bind_eq_some_iff, Option.pure_def,
    Option.some.injEq, Prod.mk.injEq] at hrun
  obtain ⟨signer, -, plan', hplan, rfl, rfl, rfl⟩ := hrun
  exact ⟨_, _, _, heq, rfl, toOption_eq_some.mp hplan⟩

theorem sampleName_names_file :
    ∃ objects parameters plan, samplePlan (chars "a b&c.txt") = some (objects, parameters, plan) ∧
      planAsicEXades xadesExternals objects parameters = .ok plan ∧
      ReferencesNameFiles xadesExternals (fun _ _ => .error "Failed") objects
        parameters.digestAlgorithm plan := by
  obtain ⟨objects, parameters, plan, heq, hnames, hplan⟩ :=
    samplePlan_spec (show (samplePlan (chars "a b&c.txt")).isSome = true by decide +kernel)
  refine ⟨objects, parameters, plan, heq, hplan,
    (planAsicEXades_names_files xadesExternals _ hplan).mpr fun o ho => ?_⟩
  have hname : o.name ∈ [chars "a b&c.txt"] := hnames ▸ List.mem_map_of_mem ho
  rw [List.mem_singleton.mp hname]
  decide

/-- **A name that is accepted and not referred to**: the URI `a#b.txt` is the path `a` with a
    fragment. -/
theorem hashName_unreferenced :
    ∃ objects parameters plan, samplePlan (chars "a#b.txt") = some (objects, parameters, plan) ∧
      planAsicEXades xadesExternals objects parameters = .ok plan ∧
      ¬ ReferencesNameFiles xadesExternals (fun _ _ => .error "Failed") objects
        parameters.digestAlgorithm plan := by
  obtain ⟨objects, parameters, plan, heq, hnames, hplan⟩ :=
    samplePlan_spec (show (samplePlan (chars "a#b.txt")).isSome = true by decide +kernel)
  refine ⟨objects, parameters, plan, heq, hplan, ?_⟩
  intro hfiles
  have hall := (referencesNameFiles_iff xadesExternals _ hplan).mp hfiles
  have hname : ReadsAsItself (chars "a#b.txt") := by
    obtain ⟨object, hobject, hname⟩ : ∃ o ∈ objects, o.name = chars "a#b.txt" :=
      List.mem_map.mp (by rw [hnames]; exact List.mem_singleton_self _)
    exact hname ▸ hall object hobject
  exact absurd hname (by decide)

end Xades

end RefineId
