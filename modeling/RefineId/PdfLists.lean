/-
  RefineId.PdfLists — the list under a key, before and after an edit.
  ════════════════════════════════════════════════════════════════════════════

  The annotations of a page and the fields of a form are both lists under a key: an array
  in the dictionary itself, or an object the dictionary refers to, or nothing yet.  An edit
  is meant to put one reference behind the last element.  Here it is shown, for each of the
  edits there are, exactly when the strict reader finds that list afterwards.

  Main results:
    • `appended_insertAt_iff` : a reference before a `]` of the dictionary.
    • `appended_object_iff`   : a reference before a `]` of another object.
    • `appended_entry_iff`    : a new entry before the last `>>`.
    • `not_appended_kept`     : nothing edited.
-/
import RefineId.PdfEdits

namespace RefineId

namespace Pdf

open Lib

/-! ## §1. Lists -/

/-- The objects of a document: the generation and the body under each number. -/
abbrev Objects := Nat → Option (Nat × Bytes)

/-- The body a reference leads to. -/
def Objects.body (objects : Objects) (target : PdfObjectReference) : Option Bytes :=
  (objects target.number).bind fun found => if found.1 = target.generation then some found.2 else none

/-- An object as an update writes it, with generation zero. -/
def Objects.reissue (objects : Objects) (number : Nat) (body : Bytes) : Objects :=
  Function.update objects number (some (0, body))

theorem Objects.body_zero {objects : Objects} {number : Nat} {body : Bytes} :
    objects.body ⟨number, 0⟩ = some body ↔ objects number = some (0, body) := by
  unfold Objects.body
  cases objects number with
  | none => simp
  | some found =>
    obtain ⟨generation, found⟩ := found
    simp [Prod.ext_iff]

theorem Objects.reissue_self (objects : Objects) (number : Nat) (body : Bytes) :
    (objects.reissue number body).body ⟨number, 0⟩ = some body := by
  rw [Objects.body_zero, Objects.reissue, Function.update_self]

theorem Objects.reissue_other {objects : Objects} {number : Nat} {body : Bytes}
    {target : PdfObjectReference} (h : target.number ≠ number) :
    (objects.reissue number body).body target = objects.body target := by
  rw [Objects.body, Objects.reissue, Function.update_of_ne h, Objects.body]

/-- An object written as it was. -/
theorem Objects.reissue_same {objects : Objects} {number : Nat} {body : Bytes}
    (h : objects.body ⟨number, 0⟩ = some body) : objects.reissue number body = objects := by
  rw [Objects.reissue, ← Objects.body_zero.mp h, Function.update_eq_self]

/-- An object of generation zero has no other. -/
theorem Objects.body_same {objects : Objects} {target : PdfObjectReference} {body found : Bytes}
    (h : objects.body ⟨target.number, 0⟩ = some body) (hfound : objects.body target = some found) :
    target = ⟨target.number, 0⟩ ∧ found = body := by
  obtain ⟨number, generation⟩ := target
  rw [Objects.body_zero] at h
  simp only at h
  rw [Objects.body, h] at hfound
  simp only [Option.bind_some] at hfound
  split_ifs at hfound with hzero
  exact ⟨by rw [← hzero], (Option.some.inj hfound).symm⟩

/-- The list a value stands for; a key that is absent stands for no elements. -/
def listOf (objects : Objects) : Option Bytes → Except PdfError (List Bytes)
  | none => .ok []
  | some value => do
    match ← completeObjectReference value with
    | none => arrayElements value
    | some target =>
      let array ← okOr (.missingObject target.number) (objects.body target)
      arrayElements array

/-- **The list under a key** of a dictionary. -/
def listUnder (objects : Objects) (key dict : Bytes) : Except PdfError (List Bytes) := do
  let dictionary ← PdfDictionary.parse dict
  let value ← dictionary.valueOf dict key
  listOf objects value

/-- **The list has grown by one reference**, at its end. -/
def Appended (objects objects' : Objects) (key dict dict' : Bytes) (number : Nat) : Prop :=
  ∃ earlier, listUnder objects key dict = .ok earlier ∧
    listUnder objects' key dict' = .ok (earlier ++ [referenceText number])

/-- The objects that are arrays are still the same. -/
def KeepsArrays (objects objects' : Objects) : Prop :=
  ∀ target array elements, objects.body target = some array →
    arrayElements array = .ok elements → objects'.body target = some array

theorem KeepsArrays.refl (objects : Objects) : KeepsArrays objects objects :=
  fun _ _ _ h _ => h

/-- A dictionary is no array. -/
theorem arrayElements_dictionary {bytes : Bytes} {dictionary : PdfDictionary} {elements : List Bytes}
    (h : PdfDictionary.parse bytes = .ok dictionary) : arrayElements bytes ≠ .ok elements := by
  intro harray
  obtain ⟨rest, _, _, hopen, -⟩ := parse_iff.mp h
  obtain ⟨⟨members, after⟩, hparts, -⟩ := bind_eq_ok.mp harray
  obtain ⟨rest', hopen', -⟩ := arrayParts_iff.mp hparts
  rw [hopen] at hopen'
  exact absurd (List.cons.inj hopen').1 (by decide)

/-- A dictionary written anew. -/
theorem KeepsArrays.reissue {objects : Objects} {j : Nat} {bytes : Bytes}
    {dictionary : PdfDictionary} (hj : objects.body ⟨j, 0⟩ = some bytes)
    (h : PdfDictionary.parse bytes = .ok dictionary) (edited : Bytes) :
    KeepsArrays objects (objects.reissue j edited) := by
  intro target array elements harray helements
  by_cases hnumber : target.number = j
  · obtain ⟨-, rfl⟩ := Objects.body_same (hnumber ▸ hj) harray
    exact absurd helements (arrayElements_dictionary h)
  · rw [Objects.reissue_other hnumber, harray]

section values
variable {n k : Nat} {value : Bytes} {objects objects' : Objects}

theorem listOf_array (h : completeObjectReference value = .ok none) :
    listOf objects (some value) = arrayElements value := by
  simp only [listOf, h, bind, Except.bind]

theorem listOf_reference {target : PdfObjectReference} {array : Bytes}
    (h : completeObjectReference value = .ok (some target))
    (harray : objects.body target = some array) :
    listOf objects (some value) = arrayElements array := by
  simp only [listOf, h, bind, Except.bind, harray, okOr]

/-- A value that stands for a list is an array, or refers to one. -/
theorem listOf_cases {elements : List Bytes} (h : listOf objects (some value) = .ok elements) :
    (completeObjectReference value = .ok none ∧ arrayElements value = .ok elements) ∨
    ∃ target array, completeObjectReference value = .ok (some target) ∧
      objects.body target = some array ∧ arrayElements array = .ok elements := by
  obtain ⟨target, htarget, h⟩ := bind_eq_ok.mp h
  cases target with
  | none => exact .inl ⟨htarget, h⟩
  | some target =>
    obtain ⟨array, harray, h⟩ := bind_eq_ok.mp h
    exact .inr ⟨target, array, htarget, okOr_eq_ok.mp harray, h⟩

/-- What does not start with a digit is no reference. -/
theorem completeObjectReference_none (h : digitsAt (skipTrivia value) = none) :
    completeObjectReference value = .ok none := by
  unfold completeObjectReference
  rw [reference_eq, unsignedU32_eq, skipTrivia_skipTrivia, h]
  rfl

/-- An array is no reference. -/
theorem reference_array {members : List Member} {after : Bytes}
    (h : arrayParts value = .ok (members, after)) : completeObjectReference value = .ok none := by
  obtain ⟨rest, hopen, -⟩ := arrayParts_iff.mp h
  refine completeObjectReference_none ?_
  rw [hopen]
  rfl

/-- **A reference edited in its trivia** refers to the same object. -/
theorem reference_insertAt {target : PdfObjectReference} (hn : n ≤ u32Max)
    (hk : value[k]? = some (byte ']')) (h : completeObjectReference value = .ok (some target)) :
    completeObjectReference (insertAt n k value) = .ok (some target) := by
  have hi := inserts_at hn hk
  rw [← h, insertAt]
  refine (completeObjectReference_splice hi ?_).trans (by rw [List.take_append_drop])
  -- a reference starts with a digit, and the edit does not
  intro hedge
  rw [List.take_append_drop] at hedge
  have hnone : completeObjectReference value = .ok none :=
    completeObjectReference_none (hedge ▸ digitsAt_self hi.splice)
  rw [hnone] at h
  exact absurd h (by simp)

theorem elements_ne_append {elements : List Bytes} {x : Bytes} : elements ≠ elements ++ [x] := by
  intro h
  have hlen := congrArg List.length h
  simp at hlen

/-- A value that is not edited has not grown. -/
theorem listOf_kept (hkeep : KeepsArrays objects objects') {elements : List Bytes}
    (h : listOf objects (some value) = .ok elements) : listOf objects' (some value) = .ok elements := by
  obtain ⟨htarget, harray⟩ | ⟨target, array, htarget, hobject, harray⟩ := listOf_cases h
  · rw [listOf_array htarget, harray]
  · rw [listOf_reference htarget (hkeep target array elements hobject harray), harray]

/-- **A value edited at a `]`** has grown exactly when it is an array and the `]` is its own. -/
theorem listOf_insertAt_iff (hn : n ≤ u32Max) (hk : value[k]? = some (byte ']'))
    (hkeep : KeepsArrays objects objects') {elements : List Bytes}
    (h : listOf objects (some value) = .ok elements) :
    listOf objects' (some (insertAt n k value)) = .ok (elements ++ [referenceText n]) ↔
      arrayClosing value = .ok k := by
  obtain ⟨htarget, harray⟩ | ⟨target, array, htarget, hobject, harray⟩ := listOf_cases h
  · obtain ⟨⟨members, after⟩, hparts, -⟩ := bind_eq_ok.mp harray
    rw [listOf_array (reference_array (parts_insertAt hn hk hparts))]
    constructor
    · intro hgrown
      by_contra hother
      obtain ⟨elements', helements', hlen⟩ := elements_insertAt_other hn hk harray hother
      rw [helements'] at hgrown
      rw [Except.ok.inj hgrown, List.length_append, List.length_singleton] at hlen
      omega
    · exact elements_insertAt_own hn harray
  · have hkept := hkeep target array elements hobject harray
    rw [listOf_reference (reference_insertAt hn hk htarget) hkept, harray]
    constructor
    · intro hgrown
      exact absurd (Except.ok.inj hgrown) elements_ne_append
    · intro hclosing
      obtain ⟨⟨members, after⟩, hparts, -⟩ := bind_eq_ok.mp hclosing
      rw [reference_array hparts] at htarget
      exact absurd htarget (by simp)

end values

/-! ## §2. Spans -/

/-- The values of two entries share no byte. -/
theorem entries_apart {dict : Bytes} {dictionary : PdfDictionary}
    (h : PdfDictionary.parse dict = .ok dictionary) {e e' : PdfDictionaryEntry}
    (he : e ∈ dictionary.entries) (he' : e' ∈ dictionary.entries) (hne : e ≠ e') :
    e.value.stop ≤ e'.value.start ∨ e'.value.stop ≤ e.value.start := by
  obtain ⟨rest, members, after, -, hreads, -, rfl⟩ := parse_iff.mp h
  have : Std.Symm fun e e' : PdfDictionaryEntry =>
      e.value.stop ≤ e'.value.start ∨ e'.value.stop ≤ e.value.start := ⟨fun _ _ => Or.symm⟩
  have horder : (members.map (Member.entry dict.length)).Pairwise fun e e' =>
      e.value.stop ≤ e'.value.start ∨ e'.value.stop ≤ e.value.start := by
    rw [List.pairwise_map]
    refine hreads.in_order.imp fun hsuf => .inl ?_
    have hlen := hsuf.length_le
    simp only [Member.entry]
    omega
  exact horder.forall he he' hne

theorem Span.of_getElem? {span : Span} {bytes : Bytes} {k : Nat} (h : span.start + k < span.stop) :
    (span.of bytes)[k]? = bytes[span.start + k]? := by
  rw [Span.of, List.getElem?_drop, List.getElem?_take_of_lt h]

theorem Span.of_length_le (span : Span) (bytes : Bytes) :
    (span.of bytes).length ≤ span.stop - span.start := by
  rw [Span.of, List.length_drop, List.length_take]
  omega

/-- The only entry of a name is one of the entries. -/
theorem entry_mem {dictionary : PdfDictionary} {key : Bytes} {entry : PdfDictionaryEntry}
    (h : dictionary.entry key = .ok (some entry)) :
    entry ∈ dictionary.entries ∧ entry.name = key := by
  unfold PdfDictionary.entry at h
  split at h
  · exact absurd h (by simp)
  next found hfound =>
    obtain rfl : found = entry := by simpa using h
    have hmem : found ∈ dictionary.entries.filter fun entry => entry.name = key :=
      hfound ▸ List.mem_singleton_self found
    simpa using List.mem_filter.mp hmem
  · exact absurd h (by simp [unreadable])

/-! ## §3. A reference before a bracket -/

/-- The bracket at `c` closes the array under the key. -/
def ClosesUnder (dictionary : PdfDictionary) (dict key : Bytes) (c : Nat) : Prop :=
  ∃ entry k, dictionary.entry key = .ok (some entry) ∧
    arrayClosing (entry.value.of dict) = .ok k ∧ c = entry.value.start + k

section dictionaries
variable {n c : Nat} {key dict : Bytes} {dictionary : PdfDictionary}
  {objects objects' : Objects}

theorem listUnder_eq (h : PdfDictionary.parse dict = .ok dictionary) :
    listUnder objects key dict = dictionary.valueOf dict key >>= listOf objects := by
  rw [listUnder, h]
  rfl

/-- Such a bracket stands in the value. -/
theorem ClosesUnder.inside {entry : PdfDictionaryEntry} {k : Nat}
    (hclosing : arrayClosing (entry.value.of dict) = .ok k) :
    entry.value.start + k < entry.value.stop := by
  obtain ⟨_, _, -, -, hlt⟩ := arrayClosing_drop hclosing
  have hle := entry.value.of_length_le dict
  omega

theorem ClosesUnder.bracket (h : ClosesUnder dictionary dict key c) : dict[c]? = some (byte ']') := by
  obtain ⟨entry, k, -, hclosing, rfl⟩ := h
  rw [← Span.of_getElem? (ClosesUnder.inside hclosing)]
  exact arrayClosing_bracket hclosing

/-- **A reference before a `]`** of the dictionary. -/
theorem appended_insertAt_iff (hn : n ≤ u32Max)
    (hparse : PdfDictionary.parse dict = .ok dictionary) (hc : dict[c]? = some (byte ']'))
    (hkeep : KeepsArrays objects objects') :
    Appended objects objects' key dict (insertAt n c dict) n ↔ ClosesUnder dictionary dict key c := by
  obtain ⟨edited, hedited, hpairs⟩ := pairs_insertAt hn hc hparse
  have hvalue : edited.valueOf (insertAt n c dict) key =
      (dictionary.entry key).map (Option.map fun entry => editedText n c dict entry.value) := by
    rw [valueOf_eq_soleValue, hpairs, soleValue_entries]
  rw [Appended, listUnder_eq hparse, listUnder_eq hedited, hvalue, valueOf_eq_map]
  cases hentry : dictionary.entry key with
  | error e =>
    constructor
    · intro hx
      obtain ⟨earlier, h, -⟩ := hx
      exact absurd h (by simp [Except.map, bind, Except.bind])
    · intro hx
      obtain ⟨entry, k, h, -⟩ := hx
      exact absurd (hentry.symm.trans h) (by simp)
  | ok found =>
    cases found with
    | none =>
      constructor
      · intro hx
        obtain ⟨earlier, h, h'⟩ := hx
        obtain rfl : [] = earlier := Except.ok.inj h
        exact absurd (Except.ok.inj h') elements_ne_append
      · intro hx
        obtain ⟨entry, k, h, -⟩ := hx
        exact absurd (hentry.symm.trans h) (by simp)
    | some entry =>
      show (∃ earlier, listOf objects (some (entry.value.of dict)) = .ok earlier ∧
        listOf objects' (some (editedText n c dict entry.value)) =
          .ok (earlier ++ [referenceText n])) ↔ _
      have hown : ClosesUnder dictionary dict key c ↔
          ∃ k, arrayClosing (entry.value.of dict) = .ok k ∧ c = entry.value.start + k := by
        constructor
        · intro hx
          obtain ⟨entry', k, h, hclosing⟩ := hx
          obtain rfl : entry = entry' := by simpa using hentry.symm.trans h
          exact ⟨k, hclosing⟩
        · intro hx
          obtain ⟨k, hclosing⟩ := hx
          exact ⟨entry, k, hentry, hclosing⟩
      rw [hown, editedText]
      split_ifs with hinside
      · obtain ⟨hstart, hstop⟩ := hinside
        obtain ⟨k, rfl⟩ : ∃ k, c = entry.value.start + k := ⟨c - entry.value.start, by omega⟩
        have hk : (entry.value.of dict)[k]? = some (byte ']') := by
          rw [Span.of_getElem? hstop, hc]
        rw [Nat.add_sub_cancel_left]
        constructor
        · intro hx
          obtain ⟨earlier, h, h'⟩ := hx
          exact ⟨k, (listOf_insertAt_iff hn hk hkeep h).mp h', rfl⟩
        · intro hx
          obtain ⟨k', hclosing, heq⟩ := hx
          obtain rfl : k = k' := by omega
          obtain ⟨members, after, hparts, -⟩ := arrayClosing_drop hclosing
          have helements : listOf objects (some (entry.value.of dict)) =
              .ok (members.map Member.text) := by
            rw [listOf_array (reference_array hparts), arrayElements, hparts]
            rfl
          exact ⟨_, helements, (listOf_insertAt_iff hn hk hkeep helements).mpr hclosing⟩
      · constructor
        · intro hx
          obtain ⟨earlier, h, h'⟩ := hx
          rw [listOf_kept hkeep h] at h'
          exact absurd (Except.ok.inj h') elements_ne_append
        · intro hx
          obtain ⟨k, hclosing, rfl⟩ := hx
          exact absurd ⟨by omega, ClosesUnder.inside hclosing⟩ hinside

/-- **Nothing edited**: the list has not grown. -/
theorem not_appended_kept (hkeep : KeepsArrays objects objects') :
    ¬ Appended objects objects' key dict dict n := by
  intro hx
  obtain ⟨earlier, h, h'⟩ := hx
  obtain ⟨dictionary, hparse, h⟩ := bind_eq_ok.mp h
  obtain ⟨value, hvalue, h⟩ := bind_eq_ok.mp h
  rw [listUnder_eq hparse, hvalue] at h'
  have hsame : listOf objects' value = .ok earlier := by
    cases value with
    | none => exact h
    | some value => exact listOf_kept hkeep h
  exact elements_ne_append (Except.ok.inj (hsame.symm.trans h'))

/-- **A reference before a `]` of another object**: the key has to refer to it. -/
theorem appended_object_iff {j : Nat} {array : Bytes} (hn : n ≤ u32Max)
    (hparse : PdfDictionary.parse dict = .ok dictionary) (hj : objects.body ⟨j, 0⟩ = some array)
    (hc : array[c]? = some (byte ']')) :
    Appended objects (objects.reissue j (insertAt n c array)) key dict dict n ↔
      ∃ entry, dictionary.entry key = .ok (some entry) ∧
        completeObjectReference (entry.value.of dict) = .ok (some ⟨j, 0⟩) ∧ arrayClosing array = .ok c := by
  rw [Appended, listUnder_eq hparse, listUnder_eq hparse, valueOf_eq_map]
  cases hentry : dictionary.entry key with
  | error e =>
    constructor
    · intro hx
      obtain ⟨earlier, h, -⟩ := hx
      exact absurd h (by simp [Except.map, bind, Except.bind])
    · intro hx
      obtain ⟨entry, h, -⟩ := hx
      exact absurd h (by simp)
  | ok found =>
    cases found with
    | none =>
      constructor
      · intro hx
        obtain ⟨earlier, h, h'⟩ := hx
        obtain rfl : [] = earlier := Except.ok.inj h
        exact absurd (Except.ok.inj h') elements_ne_append
      · intro hx
        obtain ⟨entry, h, -⟩ := hx
        exact absurd h (by simp)
    | some entry =>
      show (∃ earlier, listOf objects (some (entry.value.of dict)) = .ok earlier ∧
        listOf _ (some (entry.value.of dict)) = .ok (earlier ++ [referenceText n])) ↔ _
      constructor
      · intro hx
        obtain ⟨earlier, h, h'⟩ := hx
        refine ⟨entry, rfl, ?_⟩
        obtain ⟨htarget, -⟩ | ⟨target, array', htarget, hobject, harray⟩ := listOf_cases h
        · rw [listOf_array htarget] at h h'
          exact absurd (Except.ok.inj (h.symm.trans h')) elements_ne_append
        · by_cases hnumber : target.number = j
          · subst hnumber
            obtain ⟨hzero, rfl⟩ := Objects.body_same hj hobject
            rw [hzero] at htarget
            rw [listOf_reference htarget (objects.reissue_self ..)] at h'
            refine ⟨htarget, ?_⟩
            by_contra hother
            obtain ⟨elements', helements', hlen⟩ := elements_insertAt_other hn hc harray hother
            rw [helements'] at h'
            rw [Except.ok.inj h', List.length_append, List.length_singleton] at hlen
            omega
          · rw [listOf_reference htarget (by rw [Objects.reissue_other hnumber, hobject]),
              harray] at h'
            exact absurd (Except.ok.inj h') elements_ne_append
      · intro hx
        obtain ⟨entry', h, htarget, hclosing⟩ := hx
        obtain rfl : entry = entry' := by simpa using h
        obtain ⟨members, after, hparts, -⟩ := arrayClosing_drop hclosing
        have harray : arrayElements array = .ok (members.map Member.text) := by
          rw [arrayElements, hparts]
          rfl
        refine ⟨_, (listOf_reference htarget hj).trans harray, ?_⟩
        rw [listOf_reference htarget (objects.reissue_self ..)]
        exact elements_insertAt_own hn harray hclosing

end dictionaries

/-! ## §4. A new entry -/

section dictionaries
variable {n c : Nat} {key dict : Bytes} {dictionary : PdfDictionary}
  {objects objects' : Objects}

/-- The entries under other keys. -/
def othersThan (key : Bytes) (pairs : List (Bytes × Bytes)) : List (Bytes × Bytes) :=
  pairs.filter fun pair => pair.1 ≠ key

/-- The entries under other keys have kept their bytes. -/
def OthersKept (key dict dict' : Bytes) : Prop :=
  ∃ dictionary edited, PdfDictionary.parse dict = .ok dictionary ∧
    PdfDictionary.parse dict' = .ok edited ∧
    othersThan key (edited.pairs dict') = othersThan key (dictionary.pairs dict)

theorem othersKept_refl (hparse : PdfDictionary.parse dict = .ok dictionary) :
    OthersKept key dict dict := ⟨dictionary, dictionary, hparse, hparse, rfl⟩

/-- Around the bracket of an array under the key nothing else changes. -/
theorem othersKept_insertAt (hn : n ≤ u32Max) (hparse : PdfDictionary.parse dict = .ok dictionary)
    (hclose : ClosesUnder dictionary dict key c) : OthersKept key dict (insertAt n c dict) := by
  obtain ⟨edited, hedited, hpairs⟩ := pairs_insertAt hn hclose.bracket hparse
  refine ⟨dictionary, edited, hparse, hedited, ?_⟩
  obtain ⟨entry, k, hentry, hclosing, rfl⟩ := hclose
  obtain ⟨hmem, hname⟩ := entry_mem hentry
  have hinside := ClosesUnder.inside hclosing
  rw [hpairs, PdfDictionary.pairs, othersThan, othersThan, List.filter_map, List.filter_map]
  refine List.map_congr_left fun other hother => ?_
  obtain ⟨hmem', hname'⟩ := List.mem_filter.mp hother
  have hne : entry ≠ other := by
    intro heq
    rw [← heq] at hname'
    simp [hname] at hname'
  -- the bracket stands in no other value
  have hout : ¬ (other.value.start ≤ entry.value.start + k ∧
      entry.value.start + k < other.value.stop) := by
    have hapart := entries_apart hparse hmem hmem' hne
    omega
  rw [editedText, if_neg hout]

/-- An array of one reference. -/
def newArray (number : Nat) : Bytes := byte '[' :: (referenceText number ++ [byte ']'])

theorem newArray_reads (hn : n ≤ u32Max) (depth : Nat) (rest : Bytes) :
    Reads .items depth (referenceText n ++ byte ']' :: rest)
      [⟨[], referenceText n ++ byte ']' :: rest, byte ']' :: rest⟩] rest := by
  obtain ⟨b, w, hw⟩ := List.exists_cons_of_ne_nil (decimal_ne_nil n)
  have hb : isAsciiDigit b = true := decimal_digits (hw ▸ List.mem_cons_self)
  have hskip : skipTrivia (referenceText n ++ byte ']' :: rest) =
      referenceText n ++ byte ']' :: rest := by
    rw [referenceText, hw]
    exact skipTrivia_regular (digit_regular hb) _
  have hitem := reads_referenceText hn depth rest
  rw [← hskip] at hitem
  have hread := Reads.item hitem (.itemsEnd (skipTrivia_cons (by decide) (by decide) rest))
  rw [hskip] at hread
  exact hread

theorem newArray_elements (hn : n ≤ u32Max) : arrayElements (newArray n) = .ok [referenceText n] := by
  have hparts : arrayParts (newArray n) =
      .ok ([⟨[], referenceText n ++ [byte ']'], [byte ']']⟩], []) :=
    arrayParts_iff.mpr ⟨_, skipTrivia_cons (by decide) (by decide) _, newArray_reads hn 1 [], rfl⟩
  rw [arrayElements, hparts]
  simp [bind, Except.bind, pure, Except.pure, Member.text]

theorem newArray_new (hn : n ≤ u32Max) (hkey : ∀ b ∈ key, isRegular b = true ∧ b ≠ byte '#') :
    NewValue key (newArray n) := by
  refine ⟨hkey, ⟨_, _, rfl, by decide, by decide⟩, fun rest => ?_⟩
  have hopen : newArray n ++ 10 :: rest = byte '[' :: (referenceText n ++ byte ']' :: 10 :: rest) := by
    simp [newArray]
  rw [hopen]
  exact .array (skipTrivia_cons (by decide) (by decide) _) (by decide) (newArray_reads hn 2 _)

theorem newArray_list (hn : n ≤ u32Max) : listOf objects (some (newArray n)) = .ok [referenceText n] := by
  have helements := newArray_elements hn
  obtain ⟨⟨members, after⟩, hparts, -⟩ := bind_eq_ok.mp helements
  rw [listOf_array (reference_array hparts), helements]

/-- What the strict reader finds under the key of a new entry. -/
theorem valueOf_insertEntry {value : Bytes} (hnew : NewValue key value)
    (hparse : PdfDictionary.parse dict = .ok dictionary) :
    ∃ edited, PdfDictionary.parse (insertEntry (entryText key value) dictionary.closing dict) =
        .ok edited ∧
      edited.pairs (insertEntry (entryText key value) dictionary.closing dict) =
        dictionary.pairs dict ++ [(key, value)] ∧
      ∀ found, edited.valueOf (insertEntry (entryText key value) dictionary.closing dict) key =
        .ok found ↔ dictionary.entry key = .ok none ∧ found = some value := by
  obtain ⟨edited, hedited, hpairs⟩ := pairs_insertEntry hnew hparse
  refine ⟨edited, hedited, hpairs, fun found => ?_⟩
  have hfilter : (dictionary.pairs dict).filter (fun pair => pair.1 = key) =
      (dictionary.entries.filter fun entry => entry.name = key).map
        fun entry => (entry.name, entry.value.of dict) := by
    rw [PdfDictionary.pairs, List.filter_map]
    rfl
  rw [valueOf_eq_soleValue, hpairs, soleValue, List.filter_append, hfilter, PdfDictionary.entry]
  generalize dictionary.entries.filter _ = others
  rcases others with _ | ⟨other, _ | ⟨another, rest⟩⟩
  · simp [eq_comm]
  · simp [unreadable]
  · simp [unreadable]

/-- `find_last` finds an occurrence. -/
theorem findLast_found {needle haystack : Bytes} {i : Nat} (h : findLast haystack needle = some i) :
    needle <+: haystack.drop i := by
  induction haystack generalizing i with
  | nil => exact absurd h (by simp [findLast])
  | cons b rest ih =>
    simp only [findLast] at h
    split at h
    next j hj =>
      obtain rfl := Option.some.inj h
      exact ih hj
    · split_ifs at h with hpre
      obtain rfl := Option.some.inj h
      exact List.isPrefixOf_iff_prefix.mp hpre

/-- No occurrence stands behind it. -/
theorem findLast_last {needle haystack : Bytes} {j : Nat} (hne : needle ≠ [])
    (h : needle <+: haystack.drop j) : ∃ i, findLast haystack needle = some i ∧ j ≤ i := by
  induction haystack generalizing j with
  | nil =>
    rw [List.drop_nil, List.prefix_nil] at h
    exact absurd h hne
  | cons b rest ih =>
    simp only [findLast]
    cases j with
    | zero =>
      cases hrest : findLast rest needle with
      | some i => exact ⟨i + 1, rfl, Nat.zero_le _⟩
      | none => exact ⟨0, if_pos (List.isPrefixOf_iff_prefix.mpr h), Nat.le_refl _⟩
    | succ j =>
      obtain ⟨i, hi, hle⟩ := ih h
      exact ⟨i + 1, by rw [hi], Nat.succ_le_succ hle⟩

/-- The brackets of a dictionary are no further than the last ones. -/
theorem closing_le_findLast (hparse : PdfDictionary.parse dict = .ok dictionary) :
    ∃ i, findLast dict (ascii ">>") = some i ∧ dictionary.closing ≤ i := by
  obtain ⟨rest, members, after, hopen, hreads, -, rfl⟩ := parse_iff.mp hparse
  obtain ⟨-, hdrop⟩ := closing_drop hopen hreads
  exact findLast_last (by decide) ⟨after, hdrop.symm⟩

/-- **A new entry before the last `>>`** that is found. -/
theorem appended_entry_iff (hn : n ≤ u32Max)
    (hkey : ∀ b ∈ key, isRegular b = true ∧ b ≠ byte '#')
    (hparse : PdfDictionary.parse dict = .ok dictionary) (hc : findLast dict (ascii ">>") = some c) :
    Appended objects objects' key dict (insertEntry (entryText key (newArray n)) c dict) n ↔
      dictionary.entry key = .ok none ∧ c = dictionary.closing := by
  have hnew := newArray_new hn hkey
  obtain ⟨i, hi, hle⟩ := closing_le_findLast hparse
  obtain rfl : i = c := Option.some.inj (hi.symm.trans hc)
  by_cases hown : i = dictionary.closing
  · subst hown
    obtain ⟨edited, hedited, -, hfound⟩ := valueOf_insertEntry hnew hparse
    rw [Appended, listUnder_eq hparse, listUnder_eq hedited, valueOf_eq_map]
    constructor
    · intro hx
      obtain ⟨earlier, -, h'⟩ := hx
      obtain ⟨found, hvalue, -⟩ := bind_eq_ok.mp h'
      exact ⟨((hfound found).mp hvalue).1, rfl⟩
    · intro hx
      obtain ⟨hnone, -⟩ := hx
      refine ⟨[], by rw [hnone]; rfl, ?_⟩
      rw [(hfound _).mpr ⟨hnone, rfl⟩]
      show listOf objects' (some (newArray n)) = .ok [referenceText n]
      exact newArray_list hn
  · -- the entry stands behind the dictionary
    have hspoilt := parse_insertEntry_end hnew hparse (findLast_found hc) (by omega)
    constructor
    · intro hx
      obtain ⟨earlier, -, h'⟩ := hx
      obtain ⟨edited, hedited, -⟩ := bind_eq_ok.mp h'
      exact absurd hedited (hspoilt edited)
    · intro hx
      exact absurd hx.2 hown

/-- A new entry leaves the others. -/
theorem othersKept_insertEntry {value : Bytes} (hnew : NewValue key value)
    (hparse : PdfDictionary.parse dict = .ok dictionary) :
    OthersKept key dict (insertEntry (entryText key value) dictionary.closing dict) := by
  obtain ⟨edited, hedited, hpairs⟩ := pairs_insertEntry hnew hparse
  refine ⟨dictionary, edited, hparse, hedited, ?_⟩
  rw [hpairs, othersThan, List.filter_append, othersThan]
  simp

end dictionaries

end Pdf

end RefineId
