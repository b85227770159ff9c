/-
  RefineId.CmsRoundTrip — the CMS reader reads what the CAdES writer wrote.
  ════════════════════════════════════════════════════════════════════════════

  `cades.rs` puts a signed message together and `cms.rs` takes one apart; the two share
  nothing but the TLV codec.  The halves meet at a list of elements: what the writer
  concatenates is such a list, and the reader's iterator gives it back.

  Main results:
    • `attributesLoop_encoded` : the signed attributes are read in whatever order sorting
                                 left them.
    • `signerInfo_read`        : the signer is read with the attributes under the tag they
                                 were signed with.
    • `signedData_returns`     : the writer returns on everything its lengths can count.
    • `signedData_roundTrip`   : a written message parses, to what was put into it.
-/
import RefineId.Cms
import RefineId.BerRoundTrip
import RefineId.Document

namespace RefineId

namespace Cms

open Ber Lib Cades

/-! ## §1. Fields -/

theorem ok_bind {ε α β : Type} (a : α) (f : α → Except ε β) : (Except.ok a >>= f) = f a := rfl

theorem nextAny_ok (missing : String) (t : BerTlvAny) (rest : Fields) :
    nextAny missing (.ok t :: rest) = .ok (t, rest) := rfl

theorem nextTagged_of_tag {tag : Nat} (missing wrong : String) {t : BerTlvAny} (rest : Fields)
    (h : t.tag = tag) : nextTagged tag missing wrong (.ok t :: rest) = .ok (t, rest) := by
  unfold nextTagged
  rw [nextAny_ok, ok_bind]
  simp only [h, decide_true]
  rfl

theorem nextTagged_ok (tag size : Nat) (missing wrong : String) (value : Bytes) (rest : Fields) :
    nextTagged tag missing wrong (.ok ⟨tag, value, size⟩ :: rest) =
      .ok (⟨tag, value, size⟩, rest) :=
  nextTagged_of_tag missing wrong rest rfl

theorem parseExact_tlv {tag : UInt8} {value out : Bytes} (trailing : String)
    (htag : tag.toNat % 32 ≠ 31) (h : tlv tag value = some out) :
    parseExact tag.toNat out trailing = .ok ⟨tag.toNat, value, out.length⟩ := by
  unfold parseExact
  rw [parseExpect_tlv htag h]
  show (ensure (decide (out.length = out.length)) _ >>= _) = _
  rw [decide_eq_true rfl]
  rfl

theorem checkOid_ok {oid : Bytes} (what : String) (h : Oid.wellFormed oid = true) :
    checkOid oid what = .ok oid := by
  unfold checkOid
  rw [h]
  rfl

theorem validate_elements {parts : List Bytes} {elements : List BerTlvAny} (empty : String)
    (h : List.Forall₂ IsElement parts elements) (hne : parts ≠ []) :
    validateNonemptyTlvStream parts.flatten empty = .ok () := by
  have hdrain : drain (children parts.flatten) = .ok elements :=
    collect_eq_ok.mpr (children_flatten h)
  have helements : elements ≠ [] := by
    rintro rfl
    cases h
    exact hne rfl
  unfold validateNonemptyTlvStream
  rw [hdrain, ok_bind]
  simp [ensure, helements]

/-! ## §2. Algorithms and certificates -/

theorem parseAlgorithmIdentifier_oid {oid out : Bytes} (hoid : Oid.wellFormed oid = true)
    (h : tlv 0x06 oid = some out) : parseAlgorithmIdentifier out = .ok oid := by
  unfold parseAlgorithmIdentifier
  rw [children_single (isElement_tlv 0x06 rfl (by decide) h), nextTagged_ok, ok_bind]
  dsimp only
  rw [checkOid_ok _ hoid]
  rfl

theorem parseAlgorithmIdentifier_null {oid out : Bytes} (hoid : Oid.wellFormed oid = true)
    (h : tlv 0x06 oid = some out) : parseAlgorithmIdentifier (out ++ [0x05, 0x00]) = .ok oid := by
  have hnull : children [0x05, 0x00] = [.ok ⟨0x05, [], 2⟩] := by decide
  unfold parseAlgorithmIdentifier
  rw [children_element (isElement_tlv 0x06 rfl (by decide) h), hnull, nextTagged_ok, ok_bind]
  dsimp only
  rw [checkOid_ok _ hoid]
  rfl

/-- A digest algorithm is read back. -/
theorem digestAlgorithm_read {algorithm : DigestAlgorithm} {out : Bytes}
    (h : algorithm.algorithmIdentifier = some out) :
    ∃ body, tlv 0x30 body = some out ∧ parseAlgorithmIdentifier body = .ok algorithm.oid := by
  obtain ⟨body, hbody, hout⟩ := Option.bind_eq_some_iff.mp h
  refine ⟨body, hout, parseAlgorithmIdentifier_oid ?_ hbody⟩
  cases algorithm <;> decide

/-- The identifier of a signature algorithm is one the reader accepts. -/
theorem signatureAlgorithm_read {algorithm : Cades.SignatureAlgorithm} {out : Bytes}
    (h : algorithm.algorithmIdentifier = some out) :
    ∃ body oid, tlv 0x30 body = some out ∧ parseAlgorithmIdentifier body = .ok oid := by
  have hrsa : ∀ {oid : Bytes}, Oid.wellFormed oid = true → rsaIdentifier oid = some out →
      ∃ body oid, tlv 0x30 body = some out ∧ parseAlgorithmIdentifier body = .ok oid := by
    intro oid hoid h
    obtain ⟨body, hbody, hout⟩ := Option.bind_eq_some_iff.mp h
    exact ⟨_, _, hout, parseAlgorithmIdentifier_null hoid hbody⟩
  have hecdsa : ∀ {oid : Bytes}, Oid.wellFormed oid = true →
      (tlv 0x06 oid >>= fun body => tlv 0x30 body) = some out →
      ∃ body oid, tlv 0x30 body = some out ∧ parseAlgorithmIdentifier body = .ok oid := by
    intro oid hoid h
    obtain ⟨body, hbody, hout⟩ := Option.bind_eq_some_iff.mp h
    exact ⟨_, _, hout, parseAlgorithmIdentifier_oid hoid hbody⟩
  cases algorithm with
  | rsaPkcs1Sha256 => exact hrsa (by decide) h
  | rsaPkcs1Sha384 => exact hrsa (by decide) h
  | ecdsaSha256 => exact hecdsa (by decide) h
  | ecdsaSha384 => exact hecdsa (by decide) h

theorem nextCertificate_shrinks : Shrinks nextCertificate := by
  intro input item rest h
  unfold nextCertificate at h
  split at h
  · simp at h
  next t ht =>
    split at h
    · simp [shape] at h
    · obtain ⟨-, rfl⟩ : _ ∧ input.drop t.size = rest := by simpa using h
      have := parse_size_le ht
      rw [List.length_drop]
      omega

/-- A certificate as it can go into a message. -/
def IsSequence (bytes : Bytes) : Prop := ∃ t, IsElement bytes t ∧ t.tag = 0x30

/-- **Certificates are read back as they were written.** -/
theorem parseCertificates_flatten {certificates : List Bytes}
    (h : ∀ c ∈ certificates, IsSequence c) (hne : certificates ≠ []) :
    parseCertificates certificates.flatten = .ok certificates := by
  have hunfold : unfold nextCertificate certificates.flatten = certificates.map .ok := by
    clear hne
    induction certificates with
    | nil => rfl
    | cons c cs ih =>
      obtain ⟨t, ht, htag⟩ := h c List.mem_cons_self
      obtain ⟨b, bs, hb⟩ := List.exists_cons_of_ne_nil ht.ne_nil
      have hstep : nextCertificate (c ++ cs.flatten) = (.ok c, some cs.flatten) := by
        unfold nextCertificate
        rw [parse_append _ ht.parses]
        dsimp only
        rw [if_neg (by simp [htag]), ht.whole, List.take_left, List.drop_left]
      rw [List.flatten_cons, hb, List.cons_append, unfold_cons nextCertificate_shrinks,
        ← List.cons_append, ← hb, hstep, List.map_cons]
      dsimp only
      rw [ih fun d hd => h d (List.mem_cons_of_mem _ hd)]
  have hflatten : certificates.flatten ≠ [] := by
    obtain ⟨c, cs, rfl⟩ := List.exists_cons_of_ne_nil hne
    obtain ⟨t, ht, -⟩ := h c List.mem_cons_self
    simp [ht.ne_nil]
  unfold parseCertificates
  rw [hunfold, collect_eq_ok.mpr rfl]
  simp [ensure, hflatten]
  rfl

/-! ## §3. Sets -/

theorem sortEncodings_perm (items : List Bytes) : (sortEncodings items).Perm items :=
  List.perm_insertionSort _ _

theorem dedup_mem {items : List Bytes} {a : Bytes} : a ∈ dedup items ↔ a ∈ items := by
  fun_induction dedup items with
  | case1 b rest ih => rw [ih]; simp
  | case2 b c rest hne ih => rw [List.mem_cons, ih, ← List.mem_cons]
  | case3 rest => rfl

/-- What is sorted and deduplicated has the same members. -/
theorem mem_dedup_sort {items : List Bytes} {a : Bytes} :
    a ∈ dedup (sortEncodings items) ↔ a ∈ items := by
  rw [dedup_mem]
  exact (sortEncodings_perm items).mem_iff

/-- What a fallible map made, it made of something. -/
theorem mem_mapM {α β : Type} {f : α → Option β} {items : List α} {outs : List β}
    (h : items.mapM f = some outs) : ∀ b ∈ outs, ∃ a ∈ items, f a = some b := by
  induction items generalizing outs with
  | nil =>
    rw [List.mapM_nil] at h
    injection h with h
    rw [← h]
    simp
  | cons a items ih =>
    rw [List.mapM_cons] at h
    obtain ⟨b, hb, h⟩ := Option.bind_eq_some_iff.mp h
    obtain ⟨bs, hbs, h⟩ := Option.bind_eq_some_iff.mp h
    injection h with h
    intro c hc
    rw [← h, List.mem_cons] at hc
    rcases hc with rfl | hc
    · exact ⟨a, List.mem_cons_self, hb⟩
    · obtain ⟨d, hd, hdc⟩ := ih hbs c hc
      exact ⟨d, List.mem_cons_of_mem _ hd, hdc⟩

/-- Something for every member, as a list. -/
theorem exists_forall₂ {α β : Type} {R : α → β → Prop} {outs : List β}
    (h : ∀ b ∈ outs, ∃ a, R a b) : ∃ items, List.Forall₂ R items outs := by
  induction outs with
  | nil => exact ⟨[], .nil⟩
  | cons b outs ih =>
    obtain ⟨a, ha⟩ := h b List.mem_cons_self
    obtain ⟨items, hitems⟩ := ih fun c hc => h c (List.mem_cons_of_mem _ hc)
    exact ⟨a :: items, .cons ha hitems⟩

/-! ## §4. Attributes -/

/-- An attribute with one value, and its encoding. -/
structure Encodes (a : SignedAttribute) (out : Bytes) : Prop where
  oid : Oid.wellFormed a.oid = true
  value : ∃ t, IsElement a.valuesDer t
  written : encodeAttribute a.oid a.valuesDer = some out

theorem parseAttribute_encoded {a : SignedAttribute} {out : Bytes} (ha : Encodes a out) :
    ∃ t, IsElement out t ∧ parseAttribute t = .ok a := by
  obtain ⟨oid, hoid, h⟩ := Option.bind_eq_some_iff.mp ha.written
  obtain ⟨values, hvalues, hout⟩ := Option.bind_eq_some_iff.mp h
  obtain ⟨t, ht⟩ := ha.value
  refine ⟨_, isElement_tlv 0x30 rfl (by decide) hout, ?_⟩
  have hchildren : children (oid ++ values) =
      [.ok ⟨0x06, a.oid, oid.length⟩, .ok ⟨0x31, a.valuesDer, values.length⟩] := by
    have hrest := children_single (isElement_tlv 0x31 rfl (by decide) hvalues)
    rw [children_element (isElement_tlv 0x06 rfl (by decide) hoid), hrest]
  have hvalid : validateNonemptyTlvStream a.valuesDer "attribute value set is empty" = .ok () := by
    have := validate_elements "attribute value set is empty" (.cons ht .nil) (List.cons_ne_nil _ _)
    rwa [List.flatten_singleton] at this
  unfold parseAttribute
  dsimp only
  rw [hchildren, nextTagged_ok, ensure_bind, decide_eq_true rfl, if_pos rfl, ok_bind]
  dsimp only
  rw [checkOid_ok _ ha.oid, ok_bind, nextTagged_ok, ok_bind]
  dsimp only
  rw [ensure_bind, List.isEmpty_nil, if_pos rfl, hvalid]
  rfl

/-- Elements that follow each other. -/
theorem encoded_children {items : List SignedAttribute} {encodings : List Bytes}
    (h : List.Forall₂ Encodes items encodings) :
    ∃ elements, children encodings.flatten = elements.map .ok ∧
      List.Forall₂ (fun t a => parseAttribute t = .ok a) elements items := by
  induction h with
  | nil => exact ⟨[], rfl, .nil⟩
  | @cons a out items encodings hencodes _ ih =>
    obtain ⟨t, ht, hparse⟩ := parseAttribute_encoded hencodes
    obtain ⟨elements, hchildren, hall⟩ := ih
    refine ⟨t :: elements, ?_, .cons hparse hall⟩
    rw [List.flatten_cons, children_element ht, hchildren, List.map_cons]

/-- Without mandatory attributes every attribute is kept. -/
theorem attributesLoop_plain {items : List SignedAttribute} {elements : List BerTlvAny}
    (h : List.Forall₂ (fun t a => parseAttribute t = .ok a) elements items)
    (acc : ParsedAttributes) :
    attributesLoop false acc (elements.map .ok) =
      .ok { acc with attributes := acc.attributes ++ items } := by
  induction h generalizing acc with
  | nil => simp [attributesLoop]
  | @cons t a elements items hparse _ ih =>
    rw [List.map_cons, attributesLoop, hparse, ok_bind]
    show attributesLoop false { acc with attributes := acc.attributes ++ [a] } _ = _
    rw [ih]
    simp

/-- The values of the two mandatory attributes. -/
structure Mandatory (digest : Bytes) (a : SignedAttribute) : Prop where
  contentType : a.oid = Oid.contentType → tlv 0x06 Oid.data = some a.valuesDer
  messageDigest : a.oid = Oid.messageDigest → tlv 0x04 digest = some a.valuesDer

/-- What is known after some attributes, those of the types `oids`. -/
def found (digest : Bytes) (oids : List Bytes) (acc : ParsedAttributes)
    (items : List SignedAttribute) : ParsedAttributes where
  attributes := acc.attributes ++ items
  contentType := if oids.contains Oid.contentType then some Oid.data else acc.contentType
  messageDigest := if oids.contains Oid.messageDigest then some digest else acc.messageDigest

theorem found_eq (digest : Bytes) (oids : List Bytes) (acc : ParsedAttributes)
    (items : List SignedAttribute) :
    found digest oids acc items = ⟨acc.attributes ++ items,
      if Oid.contentType ∈ oids then some Oid.data else acc.contentType,
      if Oid.messageDigest ∈ oids then some digest else acc.messageDigest⟩ := by
  simp only [found, List.contains_iff_mem]

theorem addAttribute_found {digest : Bytes} {acc : ParsedAttributes} {a : SignedAttribute}
    (ha : Mandatory digest a) (hct : a.oid = Oid.contentType → acc.contentType = none)
    (hmd : a.oid = Oid.messageDigest → acc.messageDigest = none) :
    addAttribute true acc a = .ok (found digest [a.oid] acc [a]) := by
  have hne : Oid.contentType ≠ Oid.messageDigest := by decide
  have hdata : Oid.wellFormed Oid.data = true := by decide
  unfold addAttribute
  by_cases h1 : a.oid = Oid.contentType
  · rw [h1, if_pos (by simp), hct h1]
    have hexact := parseExact_tlv "contentType attribute has multiple values" (by decide)
      (ha.contentType h1)
    show (parseExact 0x06 a.valuesDer _ >>= _) = _
    rw [show parseExact 0x06 a.valuesDer _ = _ from hexact, ok_bind, checkOid_ok _ hdata]
    simp [found_eq, hne.symm]
  · by_cases h2 : a.oid = Oid.messageDigest
    · rw [h2, if_neg (by simp [hne.symm]), if_pos (by simp), hmd h2]
      have hexact := parseExact_tlv "messageDigest attribute has multiple values" (by decide)
        (ha.messageDigest h2)
      show (parseExact 0x04 a.valuesDer _ >>= _) = _
      rw [show parseExact 0x04 a.valuesDer _ = _ from hexact, ok_bind]
      simp [found_eq, hne]
      rfl
    · rw [if_neg (by simp [h1]), if_neg (by simp [h2])]
      simp only [found_eq, List.mem_singleton, if_neg (Ne.symm h1), if_neg (Ne.symm h2)]
      rfl

/-- **Attributes are read in any order**: what is found does not depend on it. -/
theorem attributesLoop_encoded {digest : Bytes} {items : List SignedAttribute}
    {elements : List BerTlvAny}
    (h : List.Forall₂ (fun t a => parseAttribute t = .ok a) elements items)
    (hmandatory : ∀ a ∈ items, Mandatory digest a)
    (hnodup : (items.map SignedAttribute.oid).Nodup) {acc : ParsedAttributes}
    (hct : Oid.contentType ∈ items.map SignedAttribute.oid → acc.contentType = none)
    (hmd : Oid.messageDigest ∈ items.map SignedAttribute.oid → acc.messageDigest = none) :
    attributesLoop true acc (elements.map .ok) =
      .ok (found digest (items.map SignedAttribute.oid) acc items) := by
  induction h generalizing acc with
  | nil => simp [attributesLoop, found_eq]
  | @cons t a elements items hparse _ ih =>
    rw [List.map_cons, List.nodup_cons] at hnodup
    have hadd := addAttribute_found (hmandatory a List.mem_cons_self)
      (fun h => hct (by rw [List.map_cons, h]; exact List.mem_cons_self))
      (fun h => hmd (by rw [List.map_cons, h]; exact List.mem_cons_self))
    rw [List.map_cons, attributesLoop, hparse, ok_bind, hadd, ok_bind]
    -- the type just read does not come again
    have hct' : Oid.contentType ∈ items.map SignedAttribute.oid →
        (found digest [a.oid] acc [a]).contentType = none := by
      intro h
      have hne : Oid.contentType ≠ a.oid := fun heq => hnodup.1 (heq ▸ h)
      simp only [found_eq, List.mem_singleton, if_neg hne]
      exact hct (by rw [List.map_cons]; exact List.mem_cons_of_mem _ h)
    have hmd' : Oid.messageDigest ∈ items.map SignedAttribute.oid →
        (found digest [a.oid] acc [a]).messageDigest = none := by
      intro h
      have hne : Oid.messageDigest ≠ a.oid := fun heq => hnodup.1 (heq ▸ h)
      simp only [found_eq, List.mem_singleton, if_neg hne]
      exact hmd (by rw [List.map_cons]; exact List.mem_cons_of_mem _ h)
    rw [ih (fun b hb => hmandatory b (List.mem_cons_of_mem _ hb)) hnodup.2 hct' hmd']
    by_cases h1 : Oid.contentType = a.oid <;> by_cases h2 : Oid.messageDigest = a.oid <;>
      simp [found_eq, h1, h2]

/-- The reader finds the same attributes whatever order the writer sorted them to. -/
theorem parseAttributes_sorted {digest : Bytes} {items : List SignedAttribute}
    {encodings sorted : List Bytes} (h : List.Forall₂ Encodes items encodings)
    (hsorted : encodings.Perm sorted) (hmandatory : ∀ a ∈ items, Mandatory digest a)
    (hnodup : (items.map SignedAttribute.oid).Nodup)
    (hct : Oid.contentType ∈ items.map SignedAttribute.oid)
    (hmd : Oid.messageDigest ∈ items.map SignedAttribute.oid) :
    ∃ kept, parseAttributes sorted.flatten true = .ok ⟨kept, some Oid.data, some digest⟩ := by
  obtain ⟨items', hperm, hall⟩ :
      Relation.Comp List.Perm (List.Forall₂ Encodes) items sorted := by
    rw [← List.forall₂_comp_perm_eq_perm_comp_forall₂]
    exact ⟨encodings, h, hsorted⟩
  have hoids := hperm.map SignedAttribute.oid
  obtain ⟨elements, hchildren, hparsed⟩ := encoded_children hall
  have hloop : attributesLoop true ⟨[], none, none⟩ (elements.map .ok) =
      .ok (found digest (items'.map SignedAttribute.oid) ⟨[], none, none⟩ items') :=
    attributesLoop_encoded hparsed (fun a ha => hmandatory a (hperm.mem_iff.mpr ha))
      (hoids.nodup_iff.mp hnodup) (fun _ => rfl) (fun _ => rfl)
  refine ⟨items', ?_⟩
  unfold parseAttributes
  rw [hchildren, hloop, ok_bind]
  simp only [found_eq, if_pos (hoids.mem_iff.mp hct), if_pos (hoids.mem_iff.mp hmd)]
  rfl

theorem wellFormed_contentType : Oid.wellFormed Oid.contentType = true := by decide

theorem wellFormed_messageDigest : Oid.wellFormed Oid.messageDigest = true := by decide

theorem wellFormed_signingTime : Oid.wellFormed Oid.signingTime = true := by decide

theorem wellFormed_signingCertificateV2 : Oid.wellFormed Oid.signingCertificateV2 = true := by
  decide

theorem wellFormed_timeStampToken : Oid.wellFormed Oid.signatureTimeStampToken = true := by decide

theorem mandatory_other {digest : Bytes} {a : SignedAttribute} (oid : Bytes) (ha : a.oid = oid)
    (h1 : oid ≠ Oid.contentType) (h2 : oid ≠ Oid.messageDigest) : Mandatory digest a :=
  ⟨fun h => absurd (ha.symm.trans h) h1, fun h => absurd (ha.symm.trans h) h2⟩

/-- The signing time, if any, is one more attribute with one value. -/
theorem signingTimeAttribute_items {parameters : SignerParameters} {encodings : List Bytes}
    (h : signingTimeAttribute parameters = some encodings) :
    ∃ items, List.Forall₂ Encodes items encodings ∧
      (∀ a ∈ items, a.oid = Oid.signingTime) ∧
      (items.map SignedAttribute.oid).Nodup := by
  unfold signingTimeAttribute at h
  split at h
  · injection h with h
    exact ⟨[], h ▸ .nil, by simp, by simp⟩
  next time _ =>
    obtain ⟨der, hder, h⟩ := Option.bind_eq_some_iff.mp h
    obtain ⟨attr, hattr, h⟩ := Option.bind_eq_some_iff.mp h
    injection h with h
    have hencodes : Encodes ⟨Oid.signingTime, der⟩ attr :=
      ⟨wellFormed_signingTime, ⟨_, isElement_tlv 0x17 rfl (by decide) hder⟩, hattr⟩
    refine ⟨[⟨Oid.signingTime, der⟩], h ▸ .cons hencodes .nil, ?_, by simp⟩
    intro a ha
    rw [List.mem_singleton.mp ha]

/-- **The attributes a card signs are read back**: a SET whose contents hold the type of the
    content and the digest that was asked for. -/
theorem signedAttributes_read {E : Externals} {parameters : SignerParameters}
    {digest attributes : Bytes} (h : signedAttributes E parameters digest = some attributes) :
    ∃ body kept, tlv 0x31 body = some attributes ∧
      parseAttributes body true = .ok ⟨kept, some Oid.data, some digest⟩ := by
  simp only [signedAttributes, Option.bind_eq_bind, Option.bind_eq_some_iff] at h
  obtain ⟨oid, hoid, contentType, hct, octets, hoctets, messageDigest, hmd, time, htime, certId,
    hcertId, certificate, hcert, hout⟩ := h
  obtain ⟨timeItems, htimeAll, htimeOne, htimeNodup⟩ := signingTimeAttribute_items htime
  have hcertValue : ∃ t, IsElement certId t := by
    simp only [signingCertificateV2, Option.bind_eq_bind, Option.bind_eq_some_iff] at hcertId
    obtain ⟨_, _, _, _, _, _, _, _, hcertId⟩ := hcertId
    exact ⟨_, isElement_tlv 0x30 rfl (by decide) hcertId⟩
  let items : List SignedAttribute := [⟨Oid.contentType, oid⟩, ⟨Oid.messageDigest, octets⟩] ++
    timeItems ++ [⟨Oid.signingCertificateV2, certId⟩]
  have hfront : List.Forall₂ Encodes
      [⟨Oid.contentType, oid⟩, ⟨Oid.messageDigest, octets⟩] [contentType, messageDigest] :=
    .cons ⟨wellFormed_contentType, ⟨_, isElement_tlv 0x06 rfl (by decide) hoid⟩, hct⟩
      (.cons ⟨wellFormed_messageDigest, ⟨_, isElement_tlv 0x04 rfl (by decide) hoctets⟩, hmd⟩ .nil)
  have hback : List.Forall₂ Encodes [⟨Oid.signingCertificateV2, certId⟩] [certificate] :=
    .cons ⟨wellFormed_signingCertificateV2, hcertValue, hcert⟩ .nil
  have hall : List.Forall₂ Encodes items ([contentType, messageDigest] ++ time ++ [certificate]) :=
    List.rel_append (List.rel_append hfront htimeAll) hback
  have hcases : ∀ a ∈ items, a = ⟨Oid.contentType, oid⟩ ∨ a = ⟨Oid.messageDigest, octets⟩ ∨
      a ∈ timeItems ∨ a = ⟨Oid.signingCertificateV2, certId⟩ := by
    intro a ha
    simpa [items, or_assoc] using ha
  have hmandatory : ∀ a ∈ items, Mandatory digest a := by
    intro a ha
    have hne : Oid.contentType ≠ Oid.messageDigest := by decide
    rcases hcases a ha with rfl | rfl | ha | rfl
    · exact ⟨fun _ => hoid, fun h => absurd h hne⟩
    · exact ⟨fun h => absurd h hne.symm, fun _ => hoctets⟩
    · exact mandatory_other Oid.signingTime (htimeOne a ha) (by decide) (by decide)
    · exact mandatory_other Oid.signingCertificateV2 rfl (by decide) (by decide)
  have hnodup : (items.map SignedAttribute.oid).Nodup := by
    have htypes : ∀ o ∈ timeItems.map SignedAttribute.oid, o = Oid.signingTime := by
      intro o ho
      obtain ⟨a, ha, rfl⟩ := List.mem_map.mp ho
      exact (htimeOne a ha)
    have h1 : Oid.contentType ≠ Oid.signingTime := by decide
    have h2 : Oid.messageDigest ≠ Oid.signingTime := by decide
    have h3 : Oid.signingCertificateV2 ≠ Oid.signingTime := by decide
    have h4 : Oid.contentType ≠ Oid.messageDigest := by decide
    have h5 : Oid.contentType ≠ Oid.signingCertificateV2 := by decide
    have h6 : Oid.messageDigest ≠ Oid.signingCertificateV2 := by decide
    have hnot : ∀ o, o ≠ Oid.signingTime → o ∉ timeItems.map SignedAttribute.oid :=
      fun o ho hmem => ho (htypes o hmem)
    simp only [items, List.map_append, List.map_cons, List.map_nil, List.cons_append,
      List.nil_append, List.nodup_cons, List.mem_cons, List.mem_append, List.nodup_append,
      List.not_mem_nil, or_false, not_or]
    refine ⟨⟨h4, hnot _ h1, h5⟩, ⟨hnot _ h2, h6⟩, htimeNodup, ⟨not_false, List.nodup_nil⟩, ?_⟩
    intro a ha b hb heq
    exact hnot _ h3 (by rw [← hb, ← heq]; exact ha)
  obtain ⟨kept, hparsed⟩ := parseAttributes_sorted hall (sortEncodings_perm _).symm
    hmandatory hnodup (by simp [items]) (by simp [items])
  exact ⟨_, kept, hout, hparsed⟩

/-! ## §5. The signer -/

/-- The tag octet stands first and takes no part in the rest. -/
theorem tlv_set {tag tag' : UInt8} {value out : Bytes} (h : tlv tag value = some out) :
    tlv tag' value = some (out.set 0 tag') := by
  obtain ⟨len, hlen, rfl⟩ := Option.map_eq_some_iff.mp h
  exact Option.map_eq_some_iff.mpr ⟨len, hlen, rfl⟩

/-- A certificate as its documentation has it: the issuer is the whole `Name` SEQUENCE, the
    serial number the value of an INTEGER, and the certificate itself one SEQUENCE. -/
structure SignerCertificate (certificate : Certificate) : Prop where
  raw : IsSequence certificate.rawDer
  issuer : IsSequence certificate.issuer
  serial : certificate.serialDer ≠ []

theorem issuerAndSerial_read {certificate : Certificate} {out : Bytes}
    (hcert : SignerCertificate certificate) (h : issuerAndSerial certificate = some out) :
    ∃ t, IsElement out t ∧ parseSignerIdentifier t [0x01] =
      .ok (.issuerAndSerialNumber certificate.issuer certificate.serialDer) := by
  obtain ⟨serial, hserial, hout⟩ := Option.bind_eq_some_iff.mp h
  obtain ⟨t, ht, htag⟩ := hcert.issuer
  refine ⟨_, isElement_tlv 0x30 rfl (by decide) hout, ?_⟩
  have hchildren : children (certificate.issuer ++ serial) =
      [.ok t, .ok ⟨0x02, certificate.serialDer, serial.length⟩] := by
    have hrest := children_single (isElement_tlv 0x02 rfl (by decide) hserial)
    rw [children_element ht, hrest]
  unfold parseSignerIdentifier
  dsimp only
  rw [if_pos rfl, ensure_bind, if_pos (by decide), hchildren, nextTagged_of_tag _ _ _ htag, ok_bind]
  dsimp only
  rw [nextTagged_ok, ok_bind]
  dsimp only
  rw [ensure_bind, if_pos (by simp [hcert.serial]), ht.whole, List.take_left]
  rfl

/-- Timestamps are attributes the reader walks over. -/
theorem timestampAttributes_read {timestamps : List Bytes} {out : Bytes}
    (htokens : ∀ t ∈ timestamps, ∃ e, IsElement t e)
    (h : timestampAttributes timestamps = some out) :
    parseUnsignedAttrs (children out) = .ok () := by
  unfold timestampAttributes at h
  split at h
  · injection h with h
    rw [← h]
    rfl
  · obtain ⟨instances, hinstances, hout⟩ := Option.bind_eq_some_iff.mp h
    -- every instance, wherever sorting put it, encodes the attribute of one token
    have hitem : ∀ enc ∈ dedup (sortEncodings instances), ∃ a, Encodes a enc := by
      intro enc henc
      rw [mem_dedup_sort] at henc
      obtain ⟨token, htoken, henc⟩ := mem_mapM hinstances enc henc
      obtain ⟨e, he⟩ := htokens token htoken
      exact ⟨⟨Oid.signatureTimeStampToken, token⟩, wellFormed_timeStampToken, ⟨e, he⟩, henc⟩
    obtain ⟨items, hitems⟩ := exists_forall₂ hitem
    obtain ⟨elements, hchildren, hparsed⟩ := encoded_children hitems
    have hloop := attributesLoop_plain hparsed ⟨[], none, none⟩
    have hfields := children_single (isElement_tlv 0xA1 rfl (by decide) hout)
    rw [hfields, parseUnsignedAttrs, ensure_bind, if_pos (decide_eq_true rfl), parseAttributes,
      hchildren, hloop]
    rfl

theorem parseSignedAttrs_read {body attributes digest : Bytes} {kept : List SignedAttribute}
    (htlv : tlv 0x31 body = some attributes)
    (hparsed : parseAttributes body true = .ok ⟨kept, some Oid.data, some digest⟩) :
    parseSignedAttrs Oid.data (some body) = .ok (some attributes, kept, some digest) := by
  rw [parseSignedAttrs, hparsed, ok_bind, ensure_bind, if_pos (decide_eq_true rfl), rebuiltSet, htlv]
  rfl

/-- What a reader finds out about the signer. -/
structure SignerCarries (parameters : SignerParameters) (digest attributes signature : Bytes)
    (signer : SignerInfo) : Prop where
  identifier : signer.signerIdentifier =
    .issuerAndSerialNumber parameters.certificate.issuer parameters.certificate.serialDer
  algorithm : signer.digestAlgorithmOid = parameters.digestAlgorithm.oid
  signature : signer.signature = signature
  messageDigest : signer.messageDigest = some digest
  signed : signer.signedDataToVerify = some attributes

/-- **The signer is read back**, with the attributes under the tag they were signed with. -/
theorem signerInfo_read {E : Externals} {parameters : SignerParameters}
    {digest attributes signature out : Bytes} {timestamps : List Bytes}
    (hcert : SignerCertificate parameters.certificate)
    (htokens : ∀ t ∈ timestamps, ∃ e, IsElement t e)
    (hattrs : signedAttributes E parameters digest = some attributes)
    (h : signerInfo parameters attributes signature timestamps = some out) :
    ∃ body signer, tlv 0x30 body = some out ∧ parseSignerInfo body Oid.data = .ok signer ∧
      SignerCarries parameters digest attributes signature signer := by
  obtain ⟨attrsBody, kept, hset, hparsed⟩ := signedAttributes_read hattrs
  simp only [signerInfo, Option.bind_eq_bind, Option.bind_eq_some_iff] at h
  obtain ⟨version, hversion, sid, hsid, digestAlg, hdigestAlg, sigAlg, hsigAlg, value, hvalue,
    unsigned, hunsigned, hout⟩ := h
  obtain ⟨tSid, htSid, hidentifier⟩ := issuerAndSerial_read hcert hsid
  obtain ⟨digestBody, hdigestTlv, hdigestOid⟩ := digestAlgorithm_read hdigestAlg
  obtain ⟨sigBody, sigOid, hsigTlv, hsigOid⟩ := signatureAlgorithm_read hsigAlg
  have hunsignedRead := timestampAttributes_read htokens hunsigned
  have hchildren : children (version ++ sid ++ digestAlg ++ attributes.set 0 0xA0 ++ sigAlg ++
      value ++ unsigned) =
      .ok ⟨0x02, [0x01], version.length⟩ :: .ok tSid :: .ok ⟨0x30, digestBody, digestAlg.length⟩ ::
      .ok ⟨0xA0, attrsBody, (attributes.set 0 0xA0).length⟩ :: .ok ⟨0x30, sigBody, sigAlg.length⟩ ::
      .ok ⟨0x04, signature, value.length⟩ :: children unsigned := by
    simp only [List.append_assoc]
    rw [children_element (isElement_tlv 0x02 rfl (by decide) hversion), children_element htSid,
      children_element (isElement_tlv 0x30 rfl (by decide) hdigestTlv),
      children_element (isElement_tlv 0xA0 rfl (by decide) (tlv_set hset)),
      children_element (isElement_tlv 0x30 rfl (by decide) hsigTlv),
      children_element (isElement_tlv 0x04 rfl (by decide) hvalue)]
  refine ⟨_, {
    signerIdentifier := .issuerAndSerialNumber parameters.certificate.issuer
      parameters.certificate.serialDer
    digestAlgorithmOid := parameters.digestAlgorithm.oid
    signatureAlgorithmOid := sigOid
    signature
    signedDataToVerify := some attributes
    signedAttributes := kept
    messageDigest := some digest }, hout, ?_, ⟨rfl, rfl, rfl, rfl, rfl⟩⟩
  unfold parseSignerInfo
  rw [hchildren, nextTagged_ok, ok_bind]
  dsimp only
  rw [nextAny_ok, ok_bind]
  dsimp only
  rw [hidentifier, ok_bind, nextTagged_ok, ok_bind]
  dsimp only
  rw [hdigestOid, ok_bind, splitSignedAttrs, nextAny_ok, ok_bind]
  dsimp only
  rw [if_pos rfl, nextAny_ok, ok_bind]
  dsimp only [pure, Except.pure]
  rw [ok_bind]
  dsimp only
  rw [ensure_bind, if_pos (decide_eq_true rfl), hsigOid, ok_bind, nextTagged_ok, ok_bind]
  dsimp only
  rw [hunsignedRead, ok_bind, parseSignedAttrs_read hset hparsed, ok_bind]

/-! ## §6. The message -/

/-- Revocation material the reader walks over: certificates are SEQUENCEs, and everything is
    one element. -/
structure MaterialElements (material : ValidationMaterial) : Prop where
  certificates : ∀ c ∈ material.certificates, IsSequence c
  crls : ∀ c ∈ material.crls, ∃ e, IsElement c e
  ocspResponses : ∀ r ∈ material.ocspResponses, ∃ e, IsElement r e

theorem mapM_ne_nil {α β : Type} {f : α → Option β} {items : List α} {outs : List β}
    (h : items.mapM f = some outs) (hne : items ≠ []) : outs ≠ [] := by
  obtain ⟨a, items, rfl⟩ := List.exists_cons_of_ne_nil hne
  rw [List.mapM_cons] at h
  obtain ⟨b, -, h⟩ := Option.bind_eq_some_iff.mp h
  obtain ⟨bs, -, h⟩ := Option.bind_eq_some_iff.mp h
  injection h with h
  rw [← h]
  exact List.cons_ne_nil _ _

theorem revocationField_read {material : ValidationMaterial} {out : Bytes}
    (hmaterial : MaterialElements material) (h : revocationField material = some out) :
    out = [] ∨ ∃ body, tlv 0xA1 body = some out ∧
      validateNonemptyTlvStream body "empty crls field" = .ok () := by
  unfold revocationField at h
  split at h
  · injection h with h
    exact .inl h.symm
  next hcount =>
    right
    obtain ⟨oid, -, h⟩ := Option.bind_eq_some_iff.mp h
    obtain ⟨others, hothers, hout⟩ := Option.bind_eq_some_iff.mp h
    refine ⟨_, hout, ?_⟩
    have helement : ∀ c ∈ dedup (sortEncodings (material.crls ++ others)), ∃ e, IsElement c e := by
      intro c hc
      rw [mem_dedup_sort, List.mem_append] at hc
      rcases hc with hc | hc
      · exact hmaterial.crls c hc
      · obtain ⟨response, -, hresponse⟩ := mem_mapM hothers c hc
        exact ⟨_, isElement_tlv 0xA1 rfl (by decide) hresponse⟩
    obtain ⟨elements, helements⟩ := exists_forall₂ fun c hc =>
      (helement c hc).imp fun e he => (he : flip IsElement e c)
    refine validate_elements _ helements.flip ?_
    have hsome : material.crls ++ others ≠ [] := by
      intro hnil
      obtain ⟨hcrls, hnone⟩ := List.append_eq_nil_iff.mp hnil
      have hresponses : material.ocspResponses ≠ [] := by
        rintro hresponses
        rw [hcrls, hresponses] at hcount
        exact hcount rfl
      exact mapM_ne_nil hothers hresponses hnone
    obtain ⟨c, hc⟩ := List.exists_mem_of_ne_nil _ hsome
    exact List.ne_nil_of_mem (mem_dedup_sort.mpr hc)

/-- The content a message carries. -/
def carried (encapsulation : Encapsulation) (content : Bytes) : Bytes :=
  match encapsulation with
  | .attached => content
  | .detached => []

theorem encapsulatedContent_read {encapsulation : Encapsulation} {content out : Bytes}
    (h : encapsulatedContent encapsulation content = some out) :
    ∃ body fields size, tlv 0x30 body = some out ∧
      children body = .ok ⟨0x06, Oid.data, size⟩ :: fields ∧
      parseEncapContent fields = .ok (carried encapsulation content) := by
  unfold encapsulatedContent at h
  obtain ⟨oid, hoid, h⟩ := Option.bind_eq_some_iff.mp h
  have hdata := children_element (isElement_tlv 0x06 rfl (by decide) hoid)
  cases encapsulation with
  | detached =>
    have hchildren := hdata []
    rw [List.append_nil] at hchildren
    exact ⟨oid, [], oid.length, h, hchildren, rfl⟩
  | attached =>
    obtain ⟨octets, hoctets, h⟩ := Option.bind_eq_some_iff.mp h
    obtain ⟨wrapped, hwrapped, hout⟩ := Option.bind_eq_some_iff.mp h
    have hrest := children_single (isElement_tlv 0xA0 rfl (by decide) hwrapped)
    refine ⟨_, _, oid.length, hout, hdata wrapped, ?_⟩
    have hexact := parseExact_tlv "trailing bytes in eContent" (by decide) hoctets
    rw [hrest, parseEncapContent, ensure_bind, if_pos (decide_eq_true rfl), ensure_bind,
      List.isEmpty_nil, if_pos rfl]
    show (parseExact 0x04 octets _ >>= _) = _
    rw [show parseExact 0x04 octets _ = _ from hexact]
    rfl

/-- What a reader finds in a message. -/
structure Carries (parameters : SignerParameters) (digest attributes signature : Bytes)
    (encapsulation : Encapsulation) (content : Bytes) (material : ValidationMaterial)
    (message : SignedData) : Prop where
  signer : SignerCarries parameters digest attributes signature message.signer
  content : message.econtentDer = carried encapsulation content
  certificates : ∀ c, c ∈ message.certificatesDer ↔
    c = parameters.certificate.rawDer ∨ c ∈ material.certificates

/-- The revocation field is passed over, whether it is there or not. -/
theorem takeCrls_read {material : ValidationMaterial} {revocation signers info : Bytes}
    (hmaterial : MaterialElements material) (hrevocation : revocationField material = some revocation)
    (hsigners : tlv 0x31 info = some signers) :
    ∃ remaining, children (revocation ++ signers) = remaining.map .ok ∧
      takeCrls remaining = .ok [⟨0x31, info, signers.length⟩] := by
  have hlast := children_single (isElement_tlv 0x31 rfl (by decide) hsigners)
  rcases revocationField_read hmaterial hrevocation with rfl | ⟨body, hbody, hvalid⟩
  · exact ⟨[⟨0x31, info, signers.length⟩], hlast, rfl⟩
  · refine ⟨[⟨0xA1, body, revocation.length⟩, ⟨0x31, info, signers.length⟩], ?_, ?_⟩
    · rw [children_element (isElement_tlv 0xA1 rfl (by decide) hbody), hlast]
      rfl
    · rw [takeCrls, if_pos rfl, hvalid]
      rfl

theorem takeSigner_read {body info : Bytes} {size : Nat} (hinfo : tlv 0x30 body = some info) :
    takeSigner [⟨0x31, info, size⟩] = .ok ⟨0x30, body, info.length⟩ := by
  have hchildren := children_single (isElement_tlv 0x30 rfl (by decide) hinfo)
  unfold takeSigner
  dsimp only
  rw [ensure_bind, if_pos (decide_eq_true rfl), ensure_bind, List.isEmpty_nil, if_pos rfl,
    hchildren, nextTagged_ok, ok_bind]
  rfl

/-- The wrapping of a message is taken off again. -/
theorem unwrapSignedData_written {oid body message wrapped out : Bytes}
    (hoid : tlv 0x06 Oid.signedData = some oid) (hmessage : tlv 0x30 body = some message)
    (hwrapped : tlv 0xA0 message = some wrapped) (hout : tlv 0x30 (oid ++ wrapped) = some out) :
    unwrapSignedData out = .ok body := by
  have hwellFormed : Oid.wellFormed Oid.signedData = true := by decide
  have hchildren : children (oid ++ wrapped) = [.ok ⟨0x06, Oid.signedData, oid.length⟩,
      .ok ⟨0xA0, message, wrapped.length⟩] := by
    have hrest := children_single (isElement_tlv 0xA0 rfl (by decide) hwrapped)
    rw [children_element (isElement_tlv 0x06 rfl (by decide) hoid), hrest]
  have houter : ∀ trailing, parseExact 0x30 out trailing = .ok ⟨0x30, oid ++ wrapped, out.length⟩ :=
    fun trailing => parseExact_tlv trailing (by decide) hout
  have hinner : parseExact 0x30 message "trailing bytes in ContentInfo content" =
      .ok ⟨0x30, body, message.length⟩ := parseExact_tlv _ (by decide) hmessage
  have hinfo : decodeContentInfo out = .ok body := by
    unfold decodeContentInfo
    rw [houter, ok_bind, hchildren, nextTagged_ok, ok_bind]
    dsimp only
    rw [checkOid_ok _ hwellFormed, ok_bind, ensure_bind, if_pos (decide_eq_true rfl), nextTagged_ok,
      ok_bind]
    dsimp only
    rw [ensure_bind, List.isEmpty_nil, if_pos rfl, hinner]
    rfl
  obtain ⟨len, -, hshape⟩ := Option.map_eq_some_iff.mp hout
  unfold unwrapSignedData
  split
  next => exact absurd hshape (by simp)
  next first tail =>
    obtain rfl : 0x30 = first := by
      rw [List.cons_append] at hshape
      injection hshape
    rw [if_neg (by decide), if_pos rfl, houter, ok_bind, hchildren, nextAny_ok, ok_bind]
    dsimp only
    rw [if_pos rfl, hinfo]

/-- **A written message is read back.** -/
theorem parseSignedData_written {E : Externals} {parameters : SignerParameters}
    {digest attributes signature content out : Bytes} {encapsulation : Encapsulation}
    {material : ValidationMaterial} {timestamps : List Bytes}
    (hcert : SignerCertificate parameters.certificate) (hmaterial : MaterialElements material)
    (htokens : ∀ t ∈ timestamps, ∃ e, IsElement t e)
    (hattrs : signedAttributes E parameters digest = some attributes)
    (h : signedData parameters attributes signature encapsulation content material timestamps =
      some out) :
    ∃ message, SignedData.parse out = .ok message ∧
      Carries parameters digest attributes signature encapsulation content material message := by
  simp only [signedData, Option.bind_eq_bind, Option.bind_eq_some_iff] at h
  obtain ⟨version, hversion, algorithm, halgorithm, digests, hdigests, encap, hencap, certificates,
    hcertificates, revocation, hrevocation, info, hinfo, signers, hsigners, body, hbody, oid, hoid,
    wrapped, hwrapped, hout⟩ := h
  obtain ⟨digestBody, hdigestTlv, hdigestOid⟩ := digestAlgorithm_read halgorithm
  obtain ⟨encapBody, encapFields, size, hencapTlv, hencapChildren, hencapRead⟩ :=
    encapsulatedContent_read hencap
  obtain ⟨signerBody, signer, hsignerTlv, hsignerRead, hcarries⟩ :=
    signerInfo_read hcert htokens hattrs hinfo
  obtain ⟨remaining, hremaining, hcrls⟩ := takeCrls_read hmaterial hrevocation hsigners
  have hdata : Oid.wellFormed Oid.data = true := by decide
  have hwellFormed : ∀ c ∈ dedup (sortEncodings
      (parameters.certificate.rawDer :: material.certificates)), IsSequence c := by
    intro c hc
    rw [mem_dedup_sort, List.mem_cons] at hc
    rcases hc with rfl | hc
    · exact hcert.raw
    · exact hmaterial.certificates c hc
  have hcertificatesRead := parseCertificates_flatten hwellFormed
    (List.ne_nil_of_mem (mem_dedup_sort.mpr List.mem_cons_self))
  have hdigestsRead : parseDigestAlgorithms (children algorithm) =
      .ok [parameters.digestAlgorithm.oid] := by
    have hchildren := children_single (isElement_tlv 0x30 rfl (by decide) hdigestTlv)
    rw [hchildren, parseDigestAlgorithms, ensure_bind, if_pos (decide_eq_true rfl), hdigestOid]
    rfl
  have hchildren : children (version ++ digests ++ encap ++ certificates ++ revocation ++ signers) =
      .ok ⟨0x02, [if material.ocspResponses.isEmpty then 0x01 else 0x05], version.length⟩ ::
      .ok ⟨0x31, algorithm, digests.length⟩ :: .ok ⟨0x30, encapBody, encap.length⟩ ::
      (⟨0xA0, (dedup (sortEncodings
        (parameters.certificate.rawDer :: material.certificates))).flatten,
        certificates.length⟩ :: remaining).map .ok := by
    simp only [List.append_assoc, List.map_cons]
    rw [children_element (isElement_tlv 0x02 rfl (by decide) hversion),
      children_element (isElement_tlv 0x31 rfl (by decide) hdigests),
      children_element (isElement_tlv 0x30 rfl (by decide) hencapTlv),
      children_element (isElement_tlv 0xA0 rfl (by decide) hcertificates), hremaining]
  refine ⟨⟨Oid.data, carried encapsulation content, dedup (sortEncodings
    (parameters.certificate.rawDer :: material.certificates)), signer⟩, ?_, ⟨hcarries, rfl, ?_⟩⟩
  · unfold SignedData.parse
    rw [unwrapSignedData_written hoid hbody hwrapped hout, ok_bind]
    unfold parseSignedDataBody
    rw [hchildren, nextTagged_ok, ok_bind]
    dsimp only
    rw [ensure_bind, List.isEmpty_cons, Bool.not_false, if_pos rfl, nextTagged_ok, ok_bind]
    dsimp only
    rw [hdigestsRead, ok_bind, ensure_bind, List.isEmpty_cons, Bool.not_false, if_pos rfl,
      nextTagged_ok, ok_bind]
    dsimp only
    rw [hencapChildren, nextTagged_ok, ok_bind]
    dsimp only
    rw [checkOid_ok _ hdata, ok_bind, hencapRead, ok_bind, drain, collect_eq_ok.mpr rfl, ok_bind,
      takeCertificates, if_pos rfl, hcertificatesRead]
    dsimp only [ok_bind, pure, Except.pure]
    rw [hcrls, ok_bind, takeSigner_read hsignerTlv, ok_bind]
    dsimp only
    rw [hsignerRead, ok_bind, ensure_bind, hcarries.algorithm, if_pos (by simp)]
  · intro c
    rw [mem_dedup_sort, List.mem_cons]

/-! ## §7. The writer returns -/

/-- An encoder returns at most so many octets. -/
def Fits (written : Option Bytes) (n : Nat) : Prop := ∃ out, written = some out ∧ out.length ≤ n

theorem pushLength_length {len : Nat} {out : Bytes} (h : pushLength len = some out) :
    out.length ≤ 5 := by
  unfold pushLength at h
  repeat' split at h
  all_goals first | (injection h with h; rw [← h]; simp) | cases h

theorem fits_tlv (tag : UInt8) {value : Bytes} {n : Nat} (h : value.length ≤ n) (hn : n < 2 ^ 32) :
    Fits (tlv tag value) (n + 6) := by
  obtain ⟨len, hlen⟩ := Option.isSome_iff_exists.mp (pushLength_isSome (Nat.lt_of_le_of_lt h hn))
  have hshort := pushLength_length hlen
  refine ⟨tag :: len ++ value, by rw [tlv, hlen]; rfl, ?_⟩
  simp only [List.cons_append, List.length_cons, List.length_append]
  omega

theorem Fits.bind {written : Option Bytes} {n m : Nat} {f : Bytes → Option Bytes}
    (h : Fits written n) (hf : ∀ out, out.length ≤ n → Fits (f out) m) : Fits (written >>= f) m := by
  obtain ⟨out, rfl, hlen⟩ := h
  exact hf out hlen

theorem Fits.mono {written : Option Bytes} {n m : Nat} (h : Fits written n) (hle : n ≤ m) :
    Fits written m := by
  obtain ⟨out, hout, hlen⟩ := h
  exact ⟨out, hout, Nat.le_trans hlen hle⟩

theorem fits_encodeAttribute {oid value : Bytes} {n : Nat} (hoid : oid.length ≤ 16)
    (hvalue : value.length ≤ n) (hn : n + 40 < 2 ^ 32) :
    Fits (encodeAttribute oid value) (n + 40) := by
  refine (fits_tlv 0x06 hoid (by decide)).bind fun a ha => ?_
  refine (fits_tlv 0x31 hvalue (by omega)).bind fun b hb => ?_
  have hlen : (a ++ b).length ≤ n + 28 := by
    rw [List.length_append]
    omega
  exact (fits_tlv 0x30 hlen (by omega)).mono (by omega)

theorem fits_digestIdentifier (algorithm : DigestAlgorithm) :
    Fits algorithm.algorithmIdentifier 32 := by
  have hoid : algorithm.oid.length ≤ 16 := by cases algorithm <;> decide
  refine (fits_tlv 0x06 hoid (by decide)).bind fun a ha => ?_
  exact (fits_tlv 0x30 ha (by decide)).mono (by decide)

theorem fits_signatureIdentifier (algorithm : Cades.SignatureAlgorithm) :
    Fits algorithm.algorithmIdentifier 32 := by
  cases algorithm with
  | rsaPkcs1Sha256 => exact ⟨_, rfl, by decide⟩
  | rsaPkcs1Sha384 => exact ⟨_, rfl, by decide⟩
  | ecdsaSha256 => exact ⟨_, rfl, by decide⟩
  | ecdsaSha384 => exact ⟨_, rfl, by decide⟩

theorem length_flatten_perm {a b : List Bytes} (h : a.Perm b) :
    a.flatten.length = b.flatten.length := by
  rw [List.length_flatten, List.length_flatten]
  exact (h.map List.length).sum_eq

theorem length_flatten_dedup (items : List Bytes) :
    (dedup items).flatten.length ≤ items.flatten.length := by
  fun_induction dedup items with
  | case1 b rest ih =>
    rw [List.flatten_cons, List.length_append]
    omega
  | case2 b c rest hne ih =>
    rw [List.flatten_cons, List.flatten_cons, List.length_append, List.length_append]
    omega
  | case3 rest => exact Nat.le_refl _

theorem length_flatten_set (items : List Bytes) :
    (dedup (sortEncodings items)).flatten.length ≤ items.flatten.length :=
  (length_flatten_dedup _).trans_eq (length_flatten_perm (sortEncodings_perm items))

/-- The octets of a list of strings, each with a margin. -/
def totalLength (margin : Nat) (items : List Bytes) : Nat :=
  (items.map fun item => item.length + margin).sum

theorem fits_mapM {f : Bytes → Option Bytes} {items : List Bytes} (margin : Nat)
    (h : ∀ a ∈ items, Fits (f a) (a.length + margin)) :
    ∃ outs, items.mapM f = some outs ∧ outs.flatten.length ≤ totalLength margin items := by
  induction items with
  | nil => exact ⟨[], rfl, Nat.le_refl _⟩
  | cons a items ih =>
    obtain ⟨out, hout, hlen⟩ := h a List.mem_cons_self
    obtain ⟨outs, houts, hrest⟩ := ih fun b hb => h b (List.mem_cons_of_mem _ hb)
    refine ⟨out :: outs, by rw [List.mapM_cons, hout, houts]; rfl, ?_⟩
    rw [List.flatten_cons, List.length_append, totalLength, List.map_cons, List.sum_cons]
    exact Nat.add_le_add hlen hrest

theorem totalLength_mem (margin : Nat) {items : List Bytes} {a : Bytes} (h : a ∈ items) :
    a.length + margin ≤ totalLength margin items :=
  List.le_sum_of_mem (List.mem_map_of_mem h)

theorem length_flatten_le (margin : Nat) (items : List Bytes) :
    items.flatten.length ≤ totalLength margin items := by
  induction items with
  | nil => exact Nat.le_refl _
  | cons a items ih =>
    rw [List.flatten_cons, List.length_append, totalLength, List.map_cons, List.sum_cons]
    exact Nat.add_le_add (Nat.le_add_right _ _) ih

theorem length_toUtcTime {t : SigningTime} {out : Bytes} (h : t.toUtcTime = some out) :
    out.length = 13 := by
  unfold SigningTime.toUtcTime at h
  split at h
  · cases h
  · injection h with h
    rw [← h]
    rfl

/-- The attributes are written whenever their digests fit. -/
theorem fits_signedAttributes {E : Externals} {parameters : SignerParameters} {digest : Bytes}
    (hfits : digest.length + (parameters.digestAlgorithm.digest E
      parameters.certificate.rawDer).length + 512 < 2 ^ 32) :
    Fits (signedAttributes E parameters digest) (digest.length + (parameters.digestAlgorithm.digest E
      parameters.certificate.rawDer).length + 512) := by
  have htime : ∃ time, signingTimeAttribute parameters = some time ∧ time.flatten.length ≤ 64 := by
    unfold signingTimeAttribute
    split
    · exact ⟨[], rfl, by decide⟩
    next time htime =>
      obtain ⟨t, -, ht⟩ := Option.bind_eq_some_iff.mp htime
      obtain ⟨attr, hattr, hlen⟩ : Fits (tlv 0x17 time >>= fun der =>
          encodeAttribute Oid.signingTime der) 64 := by
        refine (fits_tlv 0x17 (length_toUtcTime ht).le (by decide)).bind fun der hder => ?_
        exact (fits_encodeAttribute (by decide) hder (by decide)).mono (by decide)
      obtain ⟨der, hder, hattr⟩ := Option.bind_eq_some_iff.mp hattr
      refine ⟨[attr], by rw [hder]; show (encodeAttribute _ der >>= _) = _; rw [hattr]; rfl, ?_⟩
      rwa [List.flatten_singleton]
  have hcert : Fits (signingCertificateV2 E parameters)
      ((parameters.digestAlgorithm.digest E parameters.certificate.rawDer).length + 64) := by
    have halgorithm : Fits (certIdAlgorithm parameters.digestAlgorithm) 32 := by
      unfold certIdAlgorithm
      split
      · exact ⟨[], rfl, by decide⟩
      · exact fits_digestIdentifier _
    refine halgorithm.bind fun a ha => ?_
    refine (fits_tlv 0x04 (Nat.le_refl _) (by omega)).bind fun b hb => ?_
    refine (fits_tlv 0x30 (Nat.le_of_eq rfl) (by rw [List.length_append]; omega)).bind fun c hc => ?_
    rw [List.length_append] at hc
    refine (fits_tlv 0x30 hc (by omega)).bind fun d hd => ?_
    exact (fits_tlv 0x30 hd (by omega)).mono (by omega)
  obtain ⟨time, htime, htimeLen⟩ := htime
  have hdata : Oid.data.length ≤ 16 := by decide
  unfold signedAttributes
  refine (fits_tlv 0x06 hdata (by decide)).bind fun oid hoid => ?_
  refine (fits_encodeAttribute (by decide) hoid (by decide)).bind fun contentType hct => ?_
  refine (fits_tlv 0x04 (Nat.le_refl _) (by omega)).bind fun octets hoctets => ?_
  refine (fits_encodeAttribute (by decide) hoctets (by omega)).bind fun messageDigest hmd => ?_
  rw [htime]
  refine hcert.bind fun certId hcertId => ?_
  refine (fits_encodeAttribute (by decide) hcertId (by omega)).bind fun certificate hcertificate => ?_
  have hlen : (sortEncodings ([contentType, messageDigest] ++ time ++ [certificate])).flatten.length ≤
      digest.length + (parameters.digestAlgorithm.digest E
        parameters.certificate.rawDer).length + 400 := by
    rw [length_flatten_perm (sortEncodings_perm _)]
    simp only [List.cons_append, List.nil_append, List.flatten_cons, List.flatten_append,
      List.flatten_nil, List.append_nil, List.length_append]
    omega
  exact (fits_tlv 0x31 hlen (by omega)).mono (by omega)

theorem fits_timestampAttributes {timestamps : List Bytes}
    (hfits : totalLength 40 timestamps + 6 < 2 ^ 32) :
    Fits (timestampAttributes timestamps) (totalLength 40 timestamps + 6) := by
  unfold timestampAttributes
  split
  · exact ⟨[], rfl, Nat.zero_le _⟩
  · have hattr : ∀ token ∈ timestamps,
        Fits (encodeAttribute Oid.signatureTimeStampToken token) (token.length + 40) := by
      intro token htoken
      have hmem := totalLength_mem 40 htoken
      exact fits_encodeAttribute (by decide) (Nat.le_refl _) (by omega)
    obtain ⟨instances, hinstances, hlen⟩ := fits_mapM 40 hattr
    rw [hinstances]
    exact fits_tlv 0xA1 ((length_flatten_set instances).trans hlen) (by omega)

theorem fits_revocationField {material : ValidationMaterial}
    (hfits : totalLength 0 material.crls + totalLength 40 material.ocspResponses + 6 < 2 ^ 32) :
    Fits (revocationField material)
      (totalLength 0 material.crls + totalLength 40 material.ocspResponses + 6) := by
  have hoidLen : Oid.ocspResponseRevocationInfo.length ≤ 16 := by decide
  unfold revocationField
  split
  · exact ⟨[], rfl, Nat.zero_le _⟩
  · refine (fits_tlv 0x06 hoidLen (by decide)).bind fun oid hoid => ?_
    have hother : ∀ response ∈ material.ocspResponses,
        Fits (tlv 0xA1 (oid ++ response)) (response.length + 40) := by
      intro response hresponse
      have hmem := totalLength_mem 40 hresponse
      have hsize : (oid ++ response).length ≤ response.length + 22 := by
        rw [List.length_append]
        omega
      exact (fits_tlv 0xA1 hsize (by omega)).mono (by omega)
    obtain ⟨others, hothers, hlen⟩ := fits_mapM 40 hother
    rw [hothers]
    refine fits_tlv 0xA1 ((length_flatten_set _).trans ?_) (by omega)
    rw [List.flatten_append, List.length_append]
    exact Nat.add_le_add (length_flatten_le 0 _) hlen

theorem fits_signerInfo {parameters : SignerParameters} {attributes signature : Bytes}
    {timestamps : List Bytes} {n : Nat}
    (hn : parameters.certificate.issuer.length + parameters.certificate.serialDer.length +
      attributes.length + signature.length + totalLength 40 timestamps + 128 ≤ n)
    (hfits : n < 2 ^ 32) :
    Fits (signerInfo parameters attributes signature timestamps) n := by
  have hone : ([0x01] : Bytes).length ≤ 1 := Nat.le_refl _
  have hsid : Fits (issuerAndSerial parameters.certificate)
      (parameters.certificate.issuer.length + parameters.certificate.serialDer.length + 12) := by
    refine (fits_tlv 0x02 (Nat.le_refl _) (by omega)).bind fun serial hserial => ?_
    have hlen : (parameters.certificate.issuer ++ serial).length ≤
        parameters.certificate.issuer.length + parameters.certificate.serialDer.length + 6 := by
      rw [List.length_append]
      omega
    exact fits_tlv 0x30 hlen (by omega)
  unfold signerInfo
  refine (fits_tlv 0x02 hone (by decide)).bind fun version hversion => ?_
  refine hsid.bind fun sid hsid => ?_
  refine (fits_digestIdentifier parameters.digestAlgorithm).bind fun digest hdigest => ?_
  refine (fits_signatureIdentifier parameters.signatureAlgorithm).bind fun algorithm halgorithm => ?_
  refine (fits_tlv 0x04 (Nat.le_refl signature.length) (by omega)).bind fun value hvalue => ?_
  refine (fits_timestampAttributes (by omega)).bind fun unsigned hunsigned => ?_
  have hlen : (version ++ sid ++ digest ++ attributes.set 0 0xA0 ++ algorithm ++ value ++
      unsigned).length ≤ n - 6 := by
    simp only [List.length_append, List.length_set]
    omega
  exact (fits_tlv 0x30 hlen (by omega)).mono (by omega)

/-- An upper bound of what a message over these inputs takes. -/
def messageBound (E : Externals) (parameters : SignerParameters) (digest signature content : Bytes)
    (material : ValidationMaterial) (timestamps : List Bytes) : Nat :=
  digest.length + (parameters.digestAlgorithm.digest E parameters.certificate.rawDer).length +
    signature.length + content.length + parameters.certificate.issuer.length +
    parameters.certificate.serialDer.length + parameters.certificate.rawDer.length +
    totalLength 0 material.certificates + totalLength 0 material.crls +
    totalLength 40 material.ocspResponses + totalLength 40 timestamps + 1024

/-- **The writer returns** whenever four length octets can count the message. -/
theorem signedData_returns {E : Externals} {parameters : SignerParameters}
    {digest signature content : Bytes} (encapsulation : Encapsulation)
    {material : ValidationMaterial} {timestamps : List Bytes}
    (hfits : messageBound E parameters digest signature content material timestamps < 2 ^ 32) :
    ∃ attributes out, signedAttributes E parameters digest = some attributes ∧
      signedData parameters attributes signature encapsulation content material timestamps =
        some out := by
  unfold messageBound at hfits
  obtain ⟨attributes, hattributes, hattrsLen⟩ :=
    fits_signedAttributes (show digest.length + (parameters.digestAlgorithm.digest E
      parameters.certificate.rawDer).length + 512 < 2 ^ 32 by omega)
  have hone : ([if material.ocspResponses.isEmpty then 0x01 else 0x05] : Bytes).length ≤ 1 :=
    Nat.le_refl _
  have hdata : Oid.data.length ≤ 16 := by decide
  have hsignedData : Oid.signedData.length ≤ 16 := by decide
  have hencap : Fits (encapsulatedContent encapsulation content) (content.length + 64) := by
    refine (fits_tlv 0x06 hdata (by decide)).bind fun oid hoid => ?_
    cases encapsulation with
    | detached => exact (fits_tlv 0x30 hoid (by decide)).mono (by omega)
    | attached =>
      refine (fits_tlv 0x04 (Nat.le_refl content.length) (by omega)).bind fun octets hoctets => ?_
      refine (fits_tlv 0xA0 hoctets (by omega)).bind fun wrapped hwrapped => ?_
      have hlen : (oid ++ wrapped).length ≤ content.length + 40 := by
        rw [List.length_append]
        omega
      exact (fits_tlv 0x30 hlen (by omega)).mono (by omega)
  have hcertificates : (dedup (sortEncodings (parameters.certificate.rawDer ::
      material.certificates))).flatten.length ≤
      parameters.certificate.rawDer.length + totalLength 0 material.certificates := by
    refine (length_flatten_set _).trans ?_
    rw [List.flatten_cons, List.length_append]
    exact Nat.add_le_add_left (length_flatten_le 0 _) _
  refine ⟨attributes, ?_⟩
  suffices hmessage : Fits (signedData parameters attributes signature encapsulation content
      material timestamps) (2 ^ 32 + 6) by
    obtain ⟨out, hout, -⟩ := hmessage
    exact ⟨out, hattributes, hout⟩
  unfold signedData
  refine (fits_tlv 0x02 hone (by decide)).bind fun version hversion => ?_
  refine (fits_digestIdentifier parameters.digestAlgorithm).bind fun algorithm halgorithm => ?_
  refine (fits_tlv 0x31 halgorithm (by decide)).bind fun digests hdigests => ?_
  refine hencap.bind fun encap hencap => ?_
  refine (fits_tlv 0xA0 hcertificates (by omega)).bind fun certificates hcertificates => ?_
  refine (fits_revocationField (by omega)).bind fun revocation hrevocation => ?_
  refine (fits_signerInfo (Nat.le_refl _) (by omega)).bind fun info hinfo => ?_
  refine (fits_tlv 0x31 hinfo (by omega)).bind fun signers hsigners => ?_
  have hbody : (version ++ digests ++ encap ++ certificates ++ revocation ++ signers).length ≤
      2 ^ 32 - 64 := by
    simp only [List.length_append]
    omega
  refine (fits_tlv 0x30 hbody (by decide)).bind fun message hmessage => ?_
  refine (fits_tlv 0x06 hsignedData (by decide)).bind fun oid hoid => ?_
  refine (fits_tlv 0xA0 hmessage (by decide)).bind fun wrapped hwrapped => ?_
  have hinfo : (oid ++ wrapped).length ≤ 2 ^ 32 - 1 := by
    rw [List.length_append]
    omega
  exact (fits_tlv 0x30 hinfo (by decide)).mono (by decide)

/-- **Writer and reader agree.**  What the writer makes of a signer's certificate, a content
    and any material and timestamps parses to exactly what was put in, with the octets to
    verify the very octets that were signed; and the writer makes something of all that four
    length octets can count. -/
theorem signedData_roundTrip (E : Externals) (parameters : SignerParameters)
    (digest signature : Bytes) (encapsulation : Encapsulation) (content : Bytes)
    (material : ValidationMaterial) (timestamps : List Bytes)
    (hcert : SignerCertificate parameters.certificate) (hmaterial : MaterialElements material)
    (htokens : ∀ t ∈ timestamps, ∃ e, IsElement t e) :
    (∀ attributes out, signedAttributes E parameters digest = some attributes →
      signedData parameters attributes signature encapsulation content material timestamps =
        some out →
      ∃ message, SignedData.parse out = .ok message ∧
        Carries parameters digest attributes signature encapsulation content material message) ∧
    (messageBound E parameters digest signature content material timestamps < 2 ^ 32 →
      ∃ attributes out, signedAttributes E parameters digest = some attributes ∧
        signedData parameters attributes signature encapsulation content material timestamps =
          some out) := by
  constructor
  · intro attributes out hattrs hout
    exact parseSignedData_written hcert hmaterial htokens hattrs hout
  · intro hfits
    exact signedData_returns encapsulation hfits

/-! ## §8. A message with everything in it -/

open Document

/-- Whether octets are one SEQUENCE. -/
def isSequence (bytes : Bytes) : Bool :=
  match BerTlvAny.parse bytes with
  | .ok t => t.tag = 0x30 && t.size = bytes.length
  | .error _ => false

theorem isSequence_iff (bytes : Bytes) : isSequence bytes = true ↔ IsSequence bytes := by
  unfold isSequence
  constructor
  · intro h
    split at h
    next t ht =>
      simp only [Bool.and_eq_true, decide_eq_true_eq] at h
      exact ⟨t, ⟨ht, h.2⟩, h.1⟩
    · cases h
  · intro hx
    obtain ⟨t, ht, htag⟩ := hx
    rw [ht.parses]
    simp [htag, ht.whole]

theorem sampleSigner_isSome : sampleSigner.isSome = true := by decide +kernel

/-- A chain certificate, a list, a response and a token, each the shortest SEQUENCE. -/
def sampleMaterial : ValidationMaterial := ⟨[[0x30, 0x00]], [[0x30, 0x00]], [[0x30, 0x00]]⟩

/-- What is signed, and its digest. -/
def sampleContent : Bytes := utf8Encode (chars "pay 1")

def sampleDigest : Bytes := DigestAlgorithm.sha256.digest sampleExternals sampleContent

theorem sampleMessage_readBack : ∃ parameters, sampleSigner = some parameters ∧
    ∃ attributes out message,
      signedAttributes sampleExternals parameters sampleDigest = some attributes ∧
      signedData parameters attributes sampleSignature .attached sampleContent sampleMaterial
        [[0x30, 0x00]] = some out ∧
      SignedData.parse out = .ok message ∧
      Carries parameters sampleDigest attributes sampleSignature .attached sampleContent
        sampleMaterial message := by
  obtain ⟨parameters, hparameters⟩ := Option.isSome_iff_exists.mp sampleSigner_isSome
  have hcheck : ∀ p, sampleSigner = some p → (isSequence p.certificate.rawDer = true ∧
      isSequence p.certificate.issuer = true ∧ p.certificate.serialDer ≠ []) ∧
      messageBound sampleExternals p sampleDigest sampleSignature sampleContent sampleMaterial
        [[0x30, 0x00]] < 2 ^ 32 := by
    have hsome : sampleSigner = some (sampleSigner.get sampleSigner_isSome) := by simp
    intro p hp
    rw [hsome] at hp
    injection hp with hp
    rw [← hp]
    decide +kernel
  obtain ⟨⟨hraw, hissuer, hserial⟩, hfits⟩ := hcheck parameters hparameters
  have hshort : IsSequence [0x30, 0x00] := (isSequence_iff _).mp (by decide)
  have helement : ∃ e, IsElement [0x30, 0x00] e := hshort.imp fun e he => he.1
  obtain ⟨hread, hwrite⟩ := signedData_roundTrip sampleExternals parameters sampleDigest
    sampleSignature .attached sampleContent sampleMaterial [[0x30, 0x00]]
    ⟨(isSequence_iff _).mp hraw, (isSequence_iff _).mp hissuer, hserial⟩
    ⟨by simpa [sampleMaterial] using hshort, by simpa [sampleMaterial] using helement,
      by simpa [sampleMaterial] using helement⟩
    (by simpa using helement)
  obtain ⟨attributes, out, hattrs, hout⟩ := hwrite hfits
  obtain ⟨message, hmessage, hcarries⟩ := hread attributes out hattrs hout
  exact ⟨parameters, hparameters, attributes, out, message, hattrs, hout, hmessage, hcarries⟩

end Cms

end RefineId
