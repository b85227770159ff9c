/-
  RefineId.PdfAnnotations — the widget among the annotations of its page.
  ════════════════════════════════════════════════════════════════════════════

  `plan_annotation` finds `/Annots` by its bytes and `append_to_array` the end of the array
  by the first `]` behind the first `[`.  A strict reader finds the key among the entries of
  the page and the end of the array by its own bracket.  The two agree on a page exactly
  when it is `PlainAnnots`; then the widget joins the annotations and nothing else changes.

  Main results:
    • `appendToArray_eq`     : `append_to_array` is an edit at the bracket found.
    • `annotate_joined_iff`  : when the widget joins the annotations of its page.
-/
import RefineId.PdfLists
import RefineId.Pades

namespace RefineId

namespace Pdf

open Lib

/-! ## §1. The bracket that is found -/

/-- The first `]` behind the first `[` from `start` on. -/
def bracket (body : Bytes) (start : Nat) : Option Nat := do
  let opened ← findFirst (body.drop start) (ascii "[")
  let closed ← findFirst (body.drop (start + opened)) (ascii "]")
  return start + opened + closed

theorem findFirst_found {haystack needle : Bytes} {i : Nat} (h : findFirst haystack needle = some i) :
    needle <+: haystack.drop i := by
  obtain ⟨⟨before, after⟩, hsplit, rfl⟩ := Option.map_eq_some_iff.mp h
  have heq := splitOnce_eq hsplit
  rw [heq, List.append_assoc, List.drop_left]
  exact List.prefix_append _ _

theorem bracket_found {body : Bytes} {start c : Nat} (h : bracket body start = some c) :
    body[c]? = some (byte ']') := by
  simp only [bracket, Option.bind_eq_bind, Option.bind_eq_some_iff, Option.pure_def,
    Option.some.injEq] at h
  obtain ⟨opened, -, closed, hclosed, rfl⟩ := h
  obtain ⟨after, hafter⟩ := findFirst_found hclosed
  rw [List.drop_drop] at hafter
  have hlt : start + opened + closed < body.length := by
    by_contra hlong
    rw [List.drop_eq_nil_of_le (by omega)] at hafter
    exact absurd hafter (by simp [ascii])
  rw [List.drop_eq_getElem_cons hlt] at hafter
  rw [List.getElem?_eq_getElem hlt, ← (List.cons.inj hafter).1]
  rfl

/-- **`append_to_array` is an edit** at the bracket that is found. -/
theorem appendToArray_eq (body : Bytes) (start number : Nat) :
    appendToArray body start (referenceText number) =
      match bracket body start with
      | none => body
      | some c => insertAt number c body := by
  unfold appendToArray bracket
  cases findFirst (body.drop start) (ascii "[") with
  | none => rfl
  | some opened =>
    simp only [Option.bind_eq_bind, Option.bind_some]
    cases findFirst (body.drop (start + opened)) (ascii "]") with
    | none => rfl
    | some closed =>
      simp only [Option.bind_some, Option.pure_def, insertAt, List.append_assoc]
      rfl

/-- `insert_into_dictionary` is a new entry before the last `>>`. -/
theorem insertIntoDictionary_eq {object key value raw : Bytes} {c : Nat}
    (habsent : findFirst object raw = none) (hc : findLast object (ascii ">>") = some c) :
    insertIntoDictionary object (entryText key value) raw =
      insertEntry (entryText key value) c object := by
  obtain ⟨after, hafter⟩ := findLast_found hc
  have hdrop : object.drop (c + 2) = after := by
    rw [← List.drop_drop, ← hafter]
    rfl
  rw [insertIntoDictionary, habsent, hc]
  simp only [Option.isSome_none, Bool.false_eq_true, if_false, insertEntry, hdrop, ← hafter]
  simp [ascii, byte]

/-! ## §2. The annotations of a page -/

/-- The key of the annotations. -/
def annots : Bytes := ascii "Annots"

/-- **The edit of a page**: the page as it is afterwards, and the objects. -/
def annotate (objects : Objects) (page : Bytes) (number : Nat) :
    Option (Bytes × Objects) :=
  match planAnnotation page number with
  | .page body => some (body, objects)
  | .array j => (objects.body ⟨j, 0⟩).map fun array =>
    (page, objects.reissue j (appendToArray array 0 (referenceText number)))

/-- `pushAnnotation` writes the page or the object that the edit changes. -/
theorem pushAnnotation_annotate {D : Drawing} {index : PdfIndex} {objects : Objects}
    {pageNumber number : Nat} {page : Bytes} {update update' : Update}
    (hobjects : ∀ target found, index.objectBodyReference D.inflate target = .ok found →
      objects.body target = found)
    (h : pushAnnotation D index pageNumber page number update = .ok update') :
    ∃ page' objects', annotate objects page number = some (page', objects') ∧
      ((objects' = objects ∧ update' = update.pushBody pageNumber page') ∨
        ∃ j body, page' = page ∧ objects' = objects.reissue j body ∧
          update' = update.pushBody j body) := by
  unfold pushAnnotation at h
  unfold annotate
  cases hplan : planAnnotation page number with
  | page body =>
    rw [hplan] at h
    obtain rfl := Except.ok.inj h
    exact ⟨body, objects, rfl, .inl ⟨rfl, rfl⟩⟩
  | array j =>
    rw [hplan] at h
    simp only [bind_eq_ok, pure_eq_ok] at h
    obtain ⟨found, hfound, array, harray, rfl⟩ := h
    have hj : objects.body ⟨j, 0⟩ = some array :=
      (hobjects ⟨j, 0⟩ found hfound).trans (okOr_eq_ok.mp (mapError_eq_ok_iff.mp harray))
    exact ⟨page, _, by simp only [hj, Option.map_some], .inr ⟨j, _, rfl, rfl, rfl⟩⟩

/-- **The widget joins the annotations of its page**, and the other entries are kept. -/
structure Joined (objects objects' : Objects) (page page' : Bytes) (number : Nat) :
    Prop where
  list : Appended objects objects' annots page page' number
  others : OthersKept annots page page'

/-- **Pages on which the search finds what a strict reader finds.**  Without the bytes
    `/Annots` the key is absent however it is spelt, and the last `>>` closes the page; where
    a `[` follows them, the first `]` closes the array under the key; where a number follows,
    the key refers to that object, and the first `]` behind its first `[` closes its array. -/
def PlainAnnots (objects : Objects) (page : Bytes) (dictionary : PdfDictionary) : Prop :=
  match findFirst page (ascii "/Annots") with
  | none => dictionary.entry annots = .ok none ∧ findLast page (ascii ">>") = some dictionary.closing
  | some at_ =>
    if ((page.drop (at_ + 7)).dropWhile isAsciiWhitespace).head? = some (byte '[') then
      ∃ c, bracket page (at_ + 7) = some c ∧ ClosesUnder dictionary page annots c
    else
      ∃ j array c entry, leadingReference (page.drop (at_ + 7)) = some j ∧
        objects.body ⟨j, 0⟩ = some array ∧ bracket array 0 = some c ∧
        dictionary.entry annots = .ok (some entry) ∧
        completeObjectReference (entry.value.of page) = .ok (some ⟨j, 0⟩) ∧ arrayClosing array = .ok c

section page
variable {objects objects' : Objects} {page page' : Bytes} {dictionary : PdfDictionary}
  {number : Nat}

theorem annots_key : ∀ b ∈ annots, isRegular b = true ∧ b ≠ byte '#' := by decide +kernel

/-- An edit at a bracket of the page. -/
theorem joined_insertAt_iff {c : Nat} (hn : number ≤ u32Max)
    (hparse : PdfDictionary.parse page = .ok dictionary) (hc : page[c]? = some (byte ']')) :
    Joined objects objects page (insertAt number c page) number ↔
      ClosesUnder dictionary page annots c := by
  have happended := @appended_insertAt_iff _ _ annots _ _ _ _ hn hparse hc
    (KeepsArrays.refl objects)
  constructor
  · intro h
    exact happended.mp h.list
  · intro h
    exact ⟨happended.mpr h, othersKept_insertAt hn hparse h⟩

/-- A page that is written as it was. -/
theorem not_joined_same : ¬ Joined objects objects page page number :=
  fun h => not_appended_kept (KeepsArrays.refl objects) h.list

/-- No `/Annots` in the bytes of the page. -/
theorem joined_absent_iff (hn : number ≤ u32Max)
    (hparse : PdfDictionary.parse page = .ok dictionary)
    (habsent : findFirst page (ascii "/Annots") = none) :
    Joined objects objects page (insertIntoDictionary page
        (ascii "/Annots [" ++ referenceText number ++ ascii "]") (ascii "/Annots")) number ↔
      dictionary.entry annots = .ok none ∧ findLast page (ascii ">>") = some dictionary.closing := by
  have htext : ascii "/Annots [" ++ referenceText number ++ ascii "]" =
      entryText annots (newArray number) := by
    simp [entryText, newArray, annots, ascii, byte]
  obtain ⟨c, hc, -⟩ := closing_le_findLast hparse
  rw [htext, insertIntoDictionary_eq habsent hc, hc, Option.some.injEq]
  have happended := @appended_entry_iff _ _ _ _ _ objects objects hn annots_key
    hparse hc
  constructor
  · intro h
    exact happended.mp h.list
  · intro h
    refine ⟨happended.mpr h, ?_⟩
    rw [h.2]
    exact othersKept_insertEntry (newArray_new hn annots_key) hparse

/-- The array is another object. -/
theorem joined_object_iff {j : Nat} {array : Bytes} (hn : number ≤ u32Max)
    (hparse : PdfDictionary.parse page = .ok dictionary) (hj : objects.body ⟨j, 0⟩ = some array) :
    Joined objects (objects.reissue j (appendToArray array 0 (referenceText number))) page page
        number ↔
      ∃ c entry, bracket array 0 = some c ∧ dictionary.entry annots = .ok (some entry) ∧
        completeObjectReference (entry.value.of page) = .ok (some ⟨j, 0⟩) ∧ arrayClosing array = .ok c := by
  rw [appendToArray_eq]
  cases hbracket : bracket array 0 with
  | none =>
    constructor
    · intro h
      rw [Objects.reissue_same hj] at h
      exact absurd h not_joined_same
    · intro hx
      obtain ⟨c, entry, h, -⟩ := hx
      exact absurd h (by simp)
  | some c =>
    have happended := @appended_object_iff _ _ annots _ _ _ _ _ hn hparse hj
      (bracket_found hbracket)
    constructor
    · intro h
      obtain ⟨entry, hentry⟩ := happended.mp h.list
      exact ⟨c, entry, rfl, hentry⟩
    · intro hx
      obtain ⟨c', entry, h, hentry⟩ := hx
      obtain rfl := Option.some.inj h
      exact ⟨happended.mpr ⟨entry, hentry⟩, othersKept_refl hparse⟩

end page

/-- **When the widget joins the annotations of its page**: for every page the strict parser
    accepts and every reference, after every edit that is made. -/
theorem annotate_joined_iff (objects objects' : Objects) (page page' : Bytes)
    (dictionary : PdfDictionary) (number : Nat) (hn : number ≤ u32Max)
    (hparse : PdfDictionary.parse page = .ok dictionary)
    (h : annotate objects page number = some (page', objects')) :
    Joined objects objects' page page' number ↔ PlainAnnots objects page dictionary := by
  unfold annotate planAnnotation at h
  unfold PlainAnnots
  cases hfirst : findFirst page (ascii "/Annots") with
  | none =>
    simp only [hfirst, Option.some.injEq, Prod.mk.injEq] at h
    obtain ⟨rfl, rfl⟩ := h
    exact joined_absent_iff hn hparse hfirst
  | some at_ =>
    simp only [hfirst] at h ⊢
    by_cases hinline : ((page.drop (at_ + 7)).dropWhile isAsciiWhitespace).head? = some (byte '[')
    · simp only [if_pos hinline, Option.some.injEq, Prod.mk.injEq] at h ⊢
      obtain ⟨rfl, rfl⟩ := h
      rw [appendToArray_eq]
      cases hbracket : bracket page (at_ + 7) with
      | none =>
        constructor
        · intro hjoined
          exact absurd hjoined not_joined_same
        · intro hx
          obtain ⟨c, hc, -⟩ := hx
          exact absurd hc (by simp)
      | some c =>
        have hiff := @joined_insertAt_iff objects _ _ _ _ hn hparse
          (bracket_found hbracket)
        simp only [Option.some.injEq, exists_eq_left']
        exact hiff
    · simp only [if_neg hinline] at h ⊢
      cases hleading : leadingReference (page.drop (at_ + 7)) with
      | none =>
        simp only [hleading, Option.some.injEq, Prod.mk.injEq] at h
        obtain ⟨rfl, rfl⟩ := h
        constructor
        · intro hjoined
          exact absurd hjoined not_joined_same
        · intro hx
          obtain ⟨j, array, c, entry, hj, -⟩ := hx
          exact absurd hj (by simp)
      | some j =>
        simp only [hleading] at h
        obtain ⟨array, hj, heq⟩ := Option.map_eq_some_iff.mp h
        obtain ⟨rfl, rfl⟩ := Prod.mk.inj heq
        rw [joined_object_iff hn hparse hj]
        constructor
        · intro hx
          obtain ⟨c, entry, hbracket, hentry, htarget, hclosing⟩ := hx
          exact ⟨j, array, c, entry, rfl, hj, hbracket, hentry, htarget, hclosing⟩
        · intro hx
          obtain ⟨j', array', c, entry, hj', harray', hbracket, hentry, htarget, hclosing⟩ := hx
          obtain rfl := Option.some.inj hj'
          obtain rfl : array = array' := Option.some.inj (hj.symm.trans harray')
          exact ⟨c, entry, hbracket, hentry, htarget, hclosing⟩

/-- A page with one annotation. -/
def samplePage : Bytes := ascii "<< /Annots [ 3 0 R ] >>"

theorem samplePage_joined : ∃ dictionary, PdfDictionary.parse samplePage = .ok dictionary ∧
    annotate (fun _ => none) samplePage 9 =
      some (ascii "<< /Annots [ 3 0 R  9 0 R] >>", fun _ => none) ∧
    (Joined (fun _ => none) (fun _ => none) samplePage (ascii "<< /Annots [ 3 0 R  9 0 R] >>") 9 ↔
      PlainAnnots (fun _ => none) samplePage dictionary) := by
  have hplan : planAnnotation samplePage 9 = .page (ascii "<< /Annots [ 3 0 R  9 0 R] >>") := by
    decide
  have hannotate : annotate (fun _ => none) samplePage 9 =
      some (ascii "<< /Annots [ 3 0 R  9 0 R] >>", fun _ => none) := by
    rw [annotate, hplan]
  have hparses : (PdfDictionary.parse samplePage).toOption.isSome = true := by decide +kernel
  obtain ⟨dictionary, hdictionary⟩ := Option.isSome_iff_exists.mp hparses
  have hparse : PdfDictionary.parse samplePage = .ok dictionary := toOption_eq_some.mp hdictionary
  exact ⟨dictionary, hparse, hannotate,
    annotate_joined_iff _ _ samplePage _ dictionary 9 (by decide) hparse hannotate⟩

/-- A page whose annotation has its own rectangle. -/
def nestedPage : Bytes := ascii "<< /Annots [ << /Rect [0 0 1 1] >> ] >>"

/-- **Not every page gets its annotation**: here the reference lands in the rectangle. -/
theorem nestedPage_not_joined :
    ¬ ∀ objects objects' page page' dictionary number, number ≤ u32Max →
      PdfDictionary.parse page = .ok dictionary →
      annotate objects page number = some (page', objects') →
      Joined objects objects' page page' number := by
  intro hall
  have hplan : planAnnotation nestedPage 9 =
      .page (ascii "<< /Annots [ << /Rect [0 0 1 1 9 0 R] >> ] >>") := by decide
  have hannotate : annotate (fun _ => none) nestedPage 9 =
      some (ascii "<< /Annots [ << /Rect [0 0 1 1 9 0 R] >> ] >>", fun _ => none) := by
    rw [annotate, hplan]
  have hparses : (PdfDictionary.parse nestedPage).toOption.isSome = true := by decide +kernel
  obtain ⟨dictionary, hdictionary⟩ := Option.isSome_iff_exists.mp hparses
  obtain ⟨earlier, hbefore, hafter⟩ :=
    (hall _ _ nestedPage _ dictionary 9 (by decide) (toOption_eq_some.mp hdictionary) hannotate).list
  -- one element before, and one afterwards
  have hone : (listUnder (fun _ => none) annots nestedPage).toOption =
      some [ascii "<< /Rect [0 0 1 1] >>"] := by decide +kernel
  have hstill : (listUnder (fun _ => none) annots
      (ascii "<< /Annots [ << /Rect [0 0 1 1 9 0 R] >> ] >>")).toOption =
      some [ascii "<< /Rect [0 0 1 1 9 0 R] >>"] := by decide +kernel
  rw [hbefore] at hone
  rw [hafter] at hstill
  have hlength := congrArg List.length (Option.some.inj hstill)
  rw [List.length_append, Option.some.inj hone] at hlength
  exact absurd hlength (by simp)

end Pdf

end RefineId
