/-
  RefineId.PdfEdits — what a strict reader finds in an edited dictionary or array.
  ════════════════════════════════════════════════════════════════════════════

  Two edits are made to existing objects: a reference is put before a `]`, and an entry
  before a `>>`.  For each it is said here what the strict parser reads afterwards: which
  values of a dictionary are the same bytes, which one holds the edit, and when an array has
  one element more.

  Main results:
    • `pairs_insertAt`        : a dictionary whose bytes were edited at a `]`.
    • `elements_insertAt_own`, `elements_insertAt_other` : an array whose bytes were edited
                                at a `]`, its own or another.
    • `pairs_insertEntry`     : a dictionary with an entry more before its own `>>`.
    • `parse_insertEntry_end` : an entry before a `>>` behind the dictionary spoils it.
-/
import RefineId.PdfSplice

namespace RefineId

namespace Pdf

open Lib

/-! ## §1. A reference before a bracket -/

/-- The bytes with a reference before the byte at `c`. -/
def insertAt (number c : Nat) (bytes : Bytes) : Bytes :=
  bytes.take c ++ (32 :: (referenceText number ++ bytes.drop c))

/-- Every insertion of a reference before a `]` is an edit of the kind the parser was followed
    on: what comes first is a blank, and a number is no end of a reference. -/
theorem Inserts.splice {n : Nat} {s t : Bytes} (hi : Inserts n s t) : Splice s t := by
  obtain ⟨v, hv⟩ := hi.bracket
  obtain ⟨d, w, hw⟩ := List.exists_cons_of_ne_nil (decimal_ne_nil n)
  have hd : isAsciiDigit d = true := decimal_digits (hw ▸ List.mem_cons_self)
  have hkeyword (rest : Bytes) : consumeKeyword (ascii "R") (d :: rest) = none := by
    rw [Option.eq_none_iff_forall_ne_some]
    intro r hr
    obtain ⟨heq, -⟩ := consumeKeyword_eq_some.mp hr
    rw [(List.cons.inj heq).1] at hd
    exact absurd hd (by decide)
  have hskip : skipTrivia t = decimal n ++ (ascii " 0 R" ++ s) := by
    rw [hi.skipTrivia_eq, referenceText, List.append_assoc]
  refine ⟨⟨_, v, hv, by decide, by decide, by decide⟩, ⟨32, _, hi.inserted, by decide⟩, ?_, ?_,
    .inl hi.comment⟩
  · rw [hskip, hw, List.cons_append]
    exact hkeyword _
  · obtain ⟨h1, h2⟩ := @run_split isAsciiDigit (decimal n)
      (ascii " 0 R" ++ s) (fun b hb => decimal_digits hb) rfl
    have hdigits : digitsAt (decimal n ++ (ascii " 0 R" ++ s)) =
        some (decimal n, ascii " 0 R" ++ s) := by
      rw [digitsAt, h1, h2, if_neg]
      simp only [Bool.or_eq_true, not_or, Bool.not_eq_true]
      exact ⟨by simp [decimal_ne_nil], rfl⟩
    have hzero : consumeKeyword (ascii "R") (skipTrivia (ascii " 0 R" ++ s)) = none := rfl
    rw [referenceTail_eq, hskip, tailAt, hdigits, Option.bind_some]
    cases parseU16 (decimal n) with
    | none => rfl
    | some k => exact hzero

/-- An inserted reference neither starts nor ends what is nothing but trivia. -/
theorem Inserts.trailing_iff {n : Nat} {s t : Bytes} (hi : Inserts n s t) (u : Bytes) :
    skipTrivia (u ++ t) = [] ↔ skipTrivia (u ++ s) = [] := by
  obtain ⟨v, hv⟩ := hi.bracket
  have htrivia := skipTrivia_trivia hi.splice u
  generalize skipTrivia (u ++ s) = x, skipTrivia (u ++ t) = y at htrivia ⊢
  cases htrivia with
  | before u' hu' => simp [hu']
  | edge =>
    rw [hi.skipTrivia_eq, hv]
    simp
  | comment => rw [hi.comment]

theorem Inserts.requireEnd_eq {n : Nat} {s t : Bytes} (hi : Inserts n s t) (u : Bytes) :
    requireEnd (u ++ t) = requireEnd (u ++ s) := by
  have hempty : (skipTrivia (u ++ t)).isEmpty = (skipTrivia (u ++ s)).isEmpty := by
    rw [Bool.eq_iff_iff, List.isEmpty_iff, List.isEmpty_iff]
    exact hi.trailing_iff u
  rw [requireEnd, requireEnd, hempty]

theorem Inserts.trailing {n : Nat} {s t after : Bytes} (hi : Inserts n s t)
    (h : skipTrivia after = []) (hcase : s <:+ after ∨ after.length < s.length) :
    skipTrivia (Pdf.shift s t after) = [] := by
  rcases hcase with ⟨u, rfl⟩ | hshort
  · rw [shift_append]
    exact (hi.trailing_iff u).mpr h
  · rw [shift_short hshort]
    exact h

section insertion
variable {n c : Nat}

/-- The two ends of an insertion at a `]`. -/
theorem inserts_at {bytes : Bytes} (hn : n ≤ u32Max) (hc : bytes[c]? = some (byte ']')) :
    Inserts n (bytes.drop c) (32 :: (referenceText n ++ bytes.drop c)) := by
  obtain ⟨hlen, hget⟩ := List.getElem?_eq_some_iff.mp hc
  refine ⟨hn, ⟨bytes.drop (c + 1), ?_⟩, rfl⟩
  rw [List.drop_eq_getElem_cons hlen, hget]

theorem insertAt_eq_shift {bytes : Bytes} (hc : c ≤ bytes.length) :
    insertAt n c bytes =
      Pdf.shift (bytes.drop c) (32 :: (referenceText n ++ bytes.drop c)) bytes := by
  have hlen : (bytes.drop c).length ≤ bytes.length := by simp
  rw [Pdf.shift, if_pos hlen, List.length_drop, Nat.sub_sub_self hc]
  rfl

/-- The bytes of a value after the edit. -/
def editedText (number c : Nat) (bytes : Bytes) (value : Span) : Bytes :=
  if value.start ≤ c ∧ c < value.stop then insertAt number (c - value.start) (value.of bytes)
  else value.of bytes

/-- **The bytes of a member** after the edit. -/
theorem Member.text_shift {bytes : Bytes} {m : Member} (hc : c < bytes.length)
    (hstart : m.start <:+ bytes) (hafter : m.after <:+ m.start) :
    (m.shift (bytes.drop c) (32 :: (referenceText n ++ bytes.drop c))).text =
      editedText n c bytes (m.entry bytes.length).value := by
  rw [editedText, Member.entry_value_of hstart hafter]
  obtain ⟨a, hbytes⟩ := hstart
  obtain ⟨x, hx⟩ := hafter
  have htext : m.text = x := by simp [Member.text, ← hx]
  have hlenStart : m.start.length = x.length + m.after.length := by simp [← hx]
  have hlen : bytes.length = a.length + m.start.length := by simp [← hbytes]
  have hdrop : (bytes.drop c).length = bytes.length - c := List.length_drop
  have hbegin : (m.entry bytes.length).value.start = a.length := by
    simp only [Member.entry]
    omega
  have hstop : (m.entry bytes.length).value.stop = a.length + x.length := by
    simp only [Member.entry]
    omega
  rw [hbegin, hstop, htext]
  by_cases hbefore : c < a.length
  · -- the value starts behind the edit
    have hs : m.start.length < (bytes.drop c).length := by omega
    rw [if_neg (by omega), Member.shift, shift_short hs, shift_short (by omega), ← htext]
  by_cases hinside : c < a.length + x.length
  · -- the edit is inside the value
    obtain ⟨k, rfl⟩ : ∃ k, c = a.length + k := ⟨c - a.length, by omega⟩
    have hs : bytes.drop (a.length + k) = x.drop k ++ m.after := by
      rw [← hbytes, List.drop_length_add_append, ← hx, List.drop_append_of_le_length (by omega)]
    have hwhole : m.start = x.take k ++ bytes.drop (a.length + k) := by
      rw [hs, ← List.append_assoc, List.take_append_drop, hx]
    have hshort : m.after.length < (bytes.drop (a.length + k)).length := by omega
    have hshift : Pdf.shift (bytes.drop (a.length + k))
        (32 :: (referenceText n ++ bytes.drop (a.length + k))) m.start =
        x.take k ++ (32 :: (referenceText n ++ bytes.drop (a.length + k))) := by
      conv_lhs => rw [hwhole]
      rw [shift_append]
    rw [if_pos ⟨by omega, hinside⟩, Member.text, Member.shift, hshift, shift_short hshort, hs,
      Nat.add_sub_cancel_left, insertAt]
    simp only [← List.append_assoc, ← List.cons_append]
    rw [List.length_append, Nat.add_sub_cancel, List.take_left]
  · -- the edit is behind the value
    obtain ⟨k, rfl⟩ : ∃ k, c = a.length + x.length + k := ⟨c - (a.length + x.length), by omega⟩
    have hs : bytes.drop (a.length + x.length + k) = m.after.drop k := by
      rw [← hbytes, ← hx, ← List.append_assoc, ← List.length_append, List.drop_length_add_append]
    have hwhole : m.after = m.after.take k ++ bytes.drop (a.length + x.length + k) := by
      rw [hs, List.take_append_drop]
    have hshiftAfter : Pdf.shift (bytes.drop (a.length + x.length + k))
        (32 :: (referenceText n ++ bytes.drop (a.length + x.length + k))) m.after =
        m.after.take k ++ (32 :: (referenceText n ++ bytes.drop (a.length + x.length + k))) := by
      conv_lhs => rw [hwhole]
      rw [shift_append]
    have hshiftStart : Pdf.shift (bytes.drop (a.length + x.length + k))
        (32 :: (referenceText n ++ bytes.drop (a.length + x.length + k))) m.start =
        x ++ Pdf.shift (bytes.drop (a.length + x.length + k))
          (32 :: (referenceText n ++ bytes.drop (a.length + x.length + k))) m.after := by
      rw [hshiftAfter]
      conv_lhs => rw [← hx, hwhole, ← List.append_assoc]
      rw [shift_append, List.append_assoc]
    rw [if_neg (by omega), Member.text, Member.shift, hshiftStart]
    simp

end insertion

/-! ## §2. Dictionaries -/

section insertion
variable {n c : Nat} {bytes : Bytes}

/-- **A dictionary edited at a `]`**: the same keys, and the value around the `]` edited. -/
theorem pairs_insertAt {dictionary : PdfDictionary} (hn : n ≤ u32Max)
    (hc : bytes[c]? = some (byte ']')) (h : PdfDictionary.parse bytes = .ok dictionary) :
    ∃ edited, PdfDictionary.parse (insertAt n c bytes) = .ok edited ∧
      edited.pairs (insertAt n c bytes) =
        dictionary.entries.map fun entry => (entry.name, editedText n c bytes entry.value) := by
  obtain ⟨rest, members, after, hopen, hreads, hend, rfl⟩ := parse_iff.mp h
  obtain ⟨hlen, -⟩ := List.getElem?_eq_some_iff.mp hc
  have hi := inserts_at hn hc
  have hshift := insertAt_eq_shift (n := n) hlen.le
  generalize ht : 32 :: (referenceText n ++ bytes.drop c) = t at hi hshift
  have hs := hi.splice
  have hr {a : Bytes} : bytes.drop c <:+ a ∨ Inserts n (bytes.drop c) t := .inr hi
  obtain ⟨hopen', hrest⟩ := opening_splice hs (List.drop_suffix c bytes) hopen (by decide)
    (hreads.behind.1.trans (List.suffix_cons _ _)) hr
  obtain ⟨-, hcons, hrest⟩ := cons_splice (by decide) hreads.behind.1 hr hrest
  have hreads' := hreads.splice hs hrest hr
  rw [extra_part (by decide), List.append_nil] at hreads'
  rw [hcons, ← hshift] at hopen'
  have hafter : after <:+ bytes := hreads.behind.1.trans
    ((List.suffix_cons _ _).trans (behind_of_skipTrivia hopen).1)
  have hend' := hi.trailing hend (suffix_or_short hafter (List.drop_suffix c bytes))
  refine ⟨_, parse_iff.mpr ⟨_, _, _, hopen', hreads', hend', rfl⟩, ?_⟩
  rw [pairs_of_members hopen' hreads', List.map_map, List.map_map]
  refine List.map_congr_left fun m hm => ?_
  obtain ⟨hstart, hbehind⟩ := members_inside hopen hreads hm
  have htext := Member.text_shift (n := n) hlen hstart hbehind
  rw [ht] at htext
  simp only [Function.comp, htext]
  rfl

end insertion

/-! ## §3. Arrays -/

/-- An array ends with its own bracket. -/
theorem Reads.items_close {part : Part} {depth : Nat} {input after : Bytes} {members : List Member}
    (h : Reads part depth input members after) (hpart : part = .items) :
    byte ']' :: after <:+ input := by
  induction h with
  | itemsEnd h => exact h ▸ skipTrivia_suffix _
  | item hitem _ _ ih => exact (ih rfl).trans (hitem.behind.1.trans (skipTrivia_suffix _))
  | dictionary => cases hpart
  | array => cases hpart
  | literal => cases hpart
  | hex => cases hpart
  | name => cases hpart
  | atom => cases hpart
  | entriesEnd => cases hpart
  | entry => cases hpart

/-- A dictionary ends with its own brackets. -/
theorem Reads.entries_close {part : Part} {depth : Nat} {input after : Bytes}
    {members : List Member} (h : Reads part depth input members after) (hpart : part = .entries) :
    byte '>' :: byte '>' :: after <:+ input := by
  induction h with
  | entriesEnd h => exact h ▸ skipTrivia_suffix _
  | entry hname hvalue _ _ ih =>
    exact (ih rfl).trans (hvalue.behind.1.trans ((skipTrivia_suffix _).trans
      ((name_suffix hname).trans (skipTrivia_suffix _))))
  | dictionary => cases hpart
  | array => cases hpart
  | literal => cases hpart
  | hex => cases hpart
  | name => cases hpart
  | atom => cases hpart
  | itemsEnd => cases hpart
  | item => cases hpart

section insertion
variable {n c : Nat} {bytes : Bytes}

/-- **An array edited at a `]`.** -/
theorem parts_insertAt {members : List Member} {after : Bytes} (hn : n ≤ u32Max)
    (hc : bytes[c]? = some (byte ']')) (h : arrayParts bytes = .ok (members, after)) :
    arrayParts (insertAt n c bytes) =
      .ok (members.map (Member.shift (bytes.drop c) (32 :: (referenceText n ++ bytes.drop c))) ++
          extra n (bytes.drop c) .items after,
        Pdf.shift (bytes.drop c) (32 :: (referenceText n ++ bytes.drop c)) after) := by
  obtain ⟨rest, hopen, hreads, hend⟩ := arrayParts_iff.mp h
  obtain ⟨hlen, -⟩ := List.getElem?_eq_some_iff.mp hc
  have hi := inserts_at hn hc
  have hshift := insertAt_eq_shift (n := n) hlen.le
  generalize ht : 32 :: (referenceText n ++ bytes.drop c) = t at hi hshift
  have hs := hi.splice
  have hr {a : Bytes} : bytes.drop c <:+ a ∨ Inserts n (bytes.drop c) t := .inr hi
  obtain ⟨hopen', hrest⟩ := opening_splice hs (List.drop_suffix c bytes) hopen (by decide)
    hreads.behind.1 hr
  have hreads' := hreads.splice hs hrest hr
  have hafter : after <:+ bytes := hreads.behind.1.trans (behind_of_skipTrivia hopen).1
  have hend' := hi.trailing hend (suffix_or_short hafter (List.drop_suffix c bytes))
  rw [← hshift] at hopen'
  exact arrayParts_iff.mpr ⟨_, hopen', hreads', hend'⟩

/-- Where the bracket of an array stands. -/
theorem arrayClosing_drop (h : arrayClosing bytes = .ok c) :
    ∃ members after, arrayParts bytes = .ok (members, after) ∧ bytes.drop c = byte ']' :: after ∧
      c < bytes.length := by
  obtain ⟨⟨members, after⟩, hparts, heq⟩ := bind_eq_ok.mp h
  obtain rfl : bytes.length - (after.length + 1) = c := pure_eq_ok.mp heq
  obtain ⟨rest, hopen, hreads, -⟩ := arrayParts_iff.mp hparts
  obtain ⟨front, hfront⟩ : byte ']' :: after <:+ bytes :=
    (hreads.items_close rfl).trans (behind_of_skipTrivia hopen).1
  have hplace : bytes.length - (after.length + 1) = front.length := by simp [← hfront]
  rw [hplace]
  exact ⟨members, after, hparts, by rw [← hfront, List.drop_left], by simp [← hfront]⟩

theorem arrayClosing_bracket (h : arrayClosing bytes = .ok c) : bytes[c]? = some (byte ']') := by
  obtain ⟨_, _, -, hdrop, hlt⟩ := arrayClosing_drop h
  rw [List.drop_eq_getElem_cons hlt] at hdrop
  rw [List.getElem?_eq_getElem hlt, (List.cons.inj hdrop).1]

/-- The array whose own bracket is the one. -/
theorem elements_insertAt_own {elements : List Bytes} (hn : n ≤ u32Max)
    (h : arrayElements bytes = .ok elements) (hclosing : arrayClosing bytes = .ok c) :
    arrayElements (insertAt n c bytes) = .ok (elements ++ [referenceText n]) := by
  obtain ⟨members, after, hparts, hdrop, hlen⟩ := arrayClosing_drop hclosing
  obtain ⟨⟨members', after'⟩, hparts', heq⟩ := bind_eq_ok.mp h
  obtain ⟨rfl, rfl⟩ : members = members' ∧ after = after' :=
    Prod.mk.inj (Except.ok.inj (hparts.symm.trans hparts'))
  obtain rfl := pure_eq_ok.mp heq
  obtain ⟨rest, hopen, hreads, -⟩ := arrayParts_iff.mp hparts
  have hedited := parts_insertAt hn (arrayClosing_bracket hclosing) hparts
  have hextra : extra n (bytes.drop c) .items after =
      [⟨[], referenceText n ++ bytes.drop c, bytes.drop c⟩] := by
    rw [extra, if_pos ⟨rfl, by simp [hdrop]⟩]
  -- the elements stand before the bracket
  have htexts : (members.map (Member.shift (bytes.drop c)
      (32 :: (referenceText n ++ bytes.drop c)))).map Member.text = members.map Member.text := by
    rw [List.map_map]
    refine List.map_congr_left fun m hm => ?_
    obtain ⟨hstart, hbehind⟩ := hreads.members hm
    have hstart' : m.start <:+ bytes := hstart.trans (behind_of_skipTrivia hopen).1
    have hleft := (hreads.member_after hm).2
    have hle := hstart'.length_le
    have hplace : bytes.length - c = after.length + 1 := by
      rw [← List.length_drop, hdrop, List.length_cons]
    have htext := Member.text_shift (n := n) hlen hstart' hbehind.1
    rw [editedText, if_neg, Member.entry_value_of hstart' hbehind.1] at htext
    · exact htext
    · simp only [Member.entry]
      omega
  rw [arrayElements, hedited, hextra]
  simp only [bind, Except.bind, pure, Except.pure, List.map_append, htexts, List.map_cons,
    List.map_nil, Member.text, List.length_append, Nat.add_sub_cancel, List.take_left]

/-- Any other array keeps the number of its elements. -/
theorem elements_insertAt_other {elements : List Bytes} (hn : n ≤ u32Max)
    (hc : bytes[c]? = some (byte ']')) (h : arrayElements bytes = .ok elements)
    (hclosing : arrayClosing bytes ≠ .ok c) :
    ∃ elements', arrayElements (insertAt n c bytes) = .ok elements' ∧
      elements'.length = elements.length := by
  obtain ⟨⟨members, after⟩, hparts, heq⟩ := bind_eq_ok.mp h
  obtain rfl := pure_eq_ok.mp heq
  obtain ⟨hlen, -⟩ := List.getElem?_eq_some_iff.mp hc
  have hedited := parts_insertAt hn hc hparts
  have hextra : extra n (bytes.drop c) .items after = [] := by
    rw [extra, if_neg]
    intro hx
    refine hclosing ?_
    have hplace : bytes.length - (after.length + 1) = c := by
      rw [hx.2, List.length_drop]
      omega
    rw [arrayClosing, hparts, ← hplace]
    rfl
  rw [hextra, List.append_nil] at hedited
  refine ⟨_, by rw [arrayElements, hedited]; rfl, by simp⟩

end insertion

/-! ## §4. References -/

/-- The generation of a reference, and what is left behind its keyword. -/
def generationTail (input : Bytes) : Option (Nat × Bytes) :=
  (unsignedU16 input).bind fun p =>
    (consumeKeyword (ascii "R") (skipTrivia p.2)).map fun after => (p.1, after)

theorem generationTail_none {input : Bytes} (h : referenceTail input = none) :
    generationTail input = none := by
  rw [generationTail]
  rw [referenceTail] at h
  cases hu : unsignedU16 input with
  | none => rfl
  | some p =>
    rw [hu] at h
    rw [Option.bind_some, Option.map_eq_none_iff]
    exact h

theorem reference_eq (input : Bytes) :
    reference input = (unsignedU32 input).bind fun p =>
      (generationTail p.2).map fun q => (⟨p.1, q.1⟩, q.2) := by
  rw [reference]
  cases unsignedU32 input with
  | none => rfl
  | some p =>
    simp only [Option.bind_eq_bind, Option.bind_some, generationTail]
    cases unsignedU16 p.2 with
    | none => rfl
    | some q =>
      simp only [Option.bind_some]
      cases consumeKeyword (ascii "R") (skipTrivia q.2) <;> rfl

/-- Two results around an insertion: the same value with what is left of it edited, or the
    very same. -/
inductive Echo {α : Type} (s t : Bytes) : Option (α × Bytes) → Option (α × Bytes) → Prop
  | before (a : α) (u : Bytes) : Echo s t (some (a, u ++ s)) (some (a, u ++ t))
  | same (o : Option (α × Bytes)) : Echo s t o o

section references
variable {n : Nat} {s t : Bytes}

theorem generationTail_splice (hi : Inserts n s t) (u : Bytes) :
    Echo s t (generationTail (u ++ s)) (generationTail (u ++ t)) := by
  have hs := hi.splice
  have hnone := generationTail_none hs.noTail
  have htrivia := skipTrivia_trivia hs u
  unfold generationTail at hnone ⊢
  rw [unsignedU16_eq] at hnone ⊢
  rw [unsignedU16_eq]
  generalize skipTrivia (u ++ s) = x, skipTrivia (u ++ t) = y at htrivia ⊢
  cases htrivia with
  | edge =>
    rw [hnone, digitsAt_self hs]
    exact .same none
  | comment =>
    rw [hi.comment]
    exact .same _
  | before u' _ =>
    have haround := @bounded_splice s t parseU16 _ _ (digitsAt_splice hs u')
    generalize (digitsAt (u' ++ s)).bind _ = x, (digitsAt (u' ++ t)).bind _ = y at haround ⊢
    cases haround with
    | none => exact .same none
    | before generation u'' =>
      have hkeyword := keyword_splice hs u''
      simp only [Option.bind_some]
      generalize consumeKeyword (ascii "R") (skipTrivia (u'' ++ s)) = x,
        consumeKeyword (ascii "R") (skipTrivia (u'' ++ t)) = y at hkeyword ⊢
      cases hkeyword with
      | none => exact .same none
      | before u''' => exact .before generation u'''
      | same => exact .same _
      | lost _ hends => exact absurd hi.comment hends

/-- **A reference edited in its trivia** refers to the same object. -/
theorem completeObjectReference_splice (hi : Inserts n s t) {u : Bytes}
    (hedge : skipTrivia (u ++ s) ≠ s) :
    completeObjectReference (u ++ t) = completeObjectReference (u ++ s) := by
  have hs := hi.splice
  have htrivia := skipTrivia_trivia hs u
  unfold completeObjectReference
  simp only [reference_eq, unsignedU32_eq, skipTrivia_skipTrivia]
  generalize skipTrivia (u ++ s) = x, skipTrivia (u ++ t) = y at htrivia hedge ⊢
  cases htrivia with
  | edge => exact absurd rfl hedge
  | comment => rw [hi.comment]
  | before u' _ =>
    have haround := @bounded_splice s t parseU32 _ _ (digitsAt_splice hs u')
    generalize (digitsAt (u' ++ s)).bind _ = x, (digitsAt (u' ++ t)).bind _ = y at haround ⊢
    cases haround with
    | none => rfl
    | before number u'' =>
      have htail := generationTail_splice hi u''
      simp only [Option.bind_some]
      generalize generationTail (u'' ++ s) = x, generationTail (u'' ++ t) = y at htail ⊢
      cases htail with
      | before generation u''' => simp only [Option.map_some, hi.requireEnd_eq]
      | same => rfl

end references

/-! ## §5. An entry before two brackets -/

/-- The bytes with an entry on lines of its own before the byte at `c`. -/
def insertEntry (entry : Bytes) (c : Nat) (bytes : Bytes) : Bytes :=
  bytes.take c ++ (10 :: (entry ++ 10 :: bytes.drop c))

/-- A new entry before `>>`: its key is a name, and it is read where it stands. -/
structure NewEntry (key value s t : Bytes) : Prop where
  brackets : ∃ v, s = byte '>' :: byte '>' :: v
  inserted : t = 10 :: byte '/' :: (key ++ 32 :: (value ++ 10 :: s))
  key : ∀ b ∈ key, isRegular b = true ∧ b ≠ byte '#'
  begins : ∃ b rest, value = b :: rest ∧ isWhitespace b = false ∧ b ≠ byte '%'
  reads : Reads .value 1 (value ++ 10 :: s) [] (10 :: s)

section newEntry
variable {key value s t : Bytes}

theorem NewEntry.skipTrivia_eq (he : NewEntry key value s t) :
    skipTrivia t = byte '/' :: (key ++ 32 :: (value ++ 10 :: s)) := by
  rw [he.inserted, skipTrivia_space (by decide)]
  exact skipTrivia_cons (by decide) (by decide) _

theorem NewEntry.splice (he : NewEntry key value s t) : Splice s t := by
  obtain ⟨v, hv⟩ := he.brackets
  refine ⟨⟨_, _, hv, by decide, by decide, by decide⟩, ⟨10, _, he.inserted, by decide⟩, ?_, ?_,
    .inr ?_⟩
  · rw [he.skipTrivia_eq]
    rfl
  · rw [referenceTail_eq, he.skipTrivia_eq]
    rfl
  · rw [he.inserted]
    rfl

/-- The dictionary goes on with the new entry. -/
theorem NewEntry.reads_entries (he : NewEntry key value s t) {v : Bytes}
    (hv : s = byte '>' :: byte '>' :: v) :
    Reads .entries 1 t [⟨key, value ++ 10 :: s, 10 :: s⟩] v := by
  obtain ⟨b, rest, hvalue, hspace, hcomment⟩ := he.begins
  have hname : Pdf.name (skipTrivia t) = .ok (key, 32 :: (value ++ 10 :: s)) := by
    rw [he.skipTrivia_eq, name_cons]
    exact nameRemainder_run he.key (by decide) _
  have hskip : skipTrivia (32 :: (value ++ 10 :: s)) = value ++ 10 :: s := by
    rw [skipTrivia_space (by decide), hvalue]
    exact skipTrivia_cons hspace hcomment _
  have hend : Reads .entries 1 (10 :: s) [] v := by
    refine .entriesEnd ?_
    rw [skipTrivia_space (by decide), hv]
    exact skipTrivia_cons (by decide) (by decide) _
  have hread := he.reads
  rw [← hskip] at hread
  have hentry := Reads.entry hname hread hend
  rw [hskip] at hentry
  exact hentry

end newEntry

/-- Entries are read from where trivia ends. -/
theorem Reads.entries_of_skip {depth : Nat} {a b after : Bytes} {members : List Member}
    (h : Reads .entries depth b members after) (hskip : skipTrivia a = skipTrivia b) :
    Reads .entries depth a members after := by
  generalize hpart : Part.entries = part at h
  cases h with
  | entriesEnd h => exact .entriesEnd (hskip.trans h)
  | entry hname hvalue hentries => exact .entry (hskip ▸ hname) hvalue hentries
  | dictionary => cases hpart
  | array => cases hpart
  | literal => cases hpart
  | hex => cases hpart
  | name => cases hpart
  | atom => cases hpart
  | itemsEnd => cases hpart
  | item => cases hpart

/-- The brackets of a dictionary stand behind every member. -/
theorem Reads.member_close {part : Part} {depth : Nat} {input after : Bytes}
    {members : List Member} (h : Reads part depth input members after) (hpart : part = .entries)
    {m : Member} (hm : m ∈ members) : byte '>' :: byte '>' :: after <:+ m.after := by
  induction h with
  | entriesEnd => simp at hm
  | entry _ _ hentries _ ih =>
    rcases List.mem_cons.mp hm with rfl | hm
    · exact hentries.entries_close rfl
    · exact ih rfl hm
  | dictionary => cases hpart
  | array => cases hpart
  | literal => cases hpart
  | hex => cases hpart
  | name => cases hpart
  | atom => cases hpart
  | itemsEnd => cases hpart
  | item => cases hpart

/-- A member before the edit keeps its bytes. -/
theorem Member.text_before {s t : Bytes} {m : Member} (hafter : m.after <:+ m.start)
    (hs : s <:+ m.after) : (m.shift s t).text = m.text := by
  obtain ⟨x, hx⟩ := hafter
  obtain ⟨u, hu⟩ := hs
  have hstart : m.start = x ++ u ++ s := by rw [List.append_assoc, hu, hx]
  rw [Member.text, Member.shift, hstart, ← hu, shift_append, shift_append]
  rw [Member.text, hstart, ← hu]
  simp [List.append_assoc]

section newEntry
variable {key value s t : Bytes}

/-- **A dictionary goes on** before its own brackets. -/
theorem Reads.extend (hs : Splice s t) {v : Bytes} (hv : s = byte '>' :: byte '>' :: v)
    {others : List Member} (hothers : Reads .entries 1 t others v) {u : Bytes}
    {members : List Member} (h : Reads .entries 1 (u ++ s) members v) :
    Reads .entries 1 (u ++ t) (members.map (Member.shift s t) ++ others) v := by
  induction members generalizing u with
  | nil =>
    have hend : skipTrivia (u ++ s) = s := by
      cases h with
      | entriesEnd h => rw [h, hv]
    have htrivia := skipTrivia_trivia hs u
    refine hothers.entries_of_skip ?_
    generalize skipTrivia (u ++ s) = x, skipTrivia (u ++ t) = y at htrivia hend ⊢
    cases htrivia with
    | before u' hu' => exact absurd (List.append_left_eq_self.mp hend) hu'
    | edge => rfl
    | comment =>
      have hshort := comment_shorter (s := s) (by simp [hv])
      rw [hend] at hshort
      exact absurd hshort (Nat.lt_irrefl _)
  | cons m members ih =>
    generalize hinput : u ++ s = input at h
    cases h with
    | @entry _ _ named key mid _ _ hname hvalue hentries =>
      subst hinput
      have hmid : s <:+ mid := hv ▸ hentries.entries_close rfl
      have hbehind := hvalue.behind.1.trans (skipTrivia_suffix named)
      have hr : s <:+ mid ∨ Inserts 0 s t := .inl hmid
      obtain ⟨hkey, hnamed⟩ := key_splice hs (List.suffix_append u s) hname hbehind hr
      obtain ⟨heq, hcase⟩ := value_splice hs hvalue List.suffix_rfl hnamed hr
      have hread := hvalue.splice hs hcase hr
      rw [extra_part (by decide), ← heq] at hread
      obtain ⟨u', rfl⟩ := hmid
      have hrest := ih hentries
      rw [← shift_append s t u'] at hrest
      have hentry := Reads.entry hkey hread hrest
      rw [heq, shift_append] at hentry
      exact hentry

end newEntry

section newEntry
variable {key value bytes : Bytes}

/-- The text of a new entry. -/
def entryText (key value : Bytes) : Bytes := byte '/' :: (key ++ 32 :: value)

/-- A value that is read before a line end. -/
structure NewValue (key value : Bytes) : Prop where
  key : ∀ b ∈ key, isRegular b = true ∧ b ≠ byte '#'
  begins : ∃ b rest, value = b :: rest ∧ isWhitespace b = false ∧ b ≠ byte '%'
  reads : ∀ rest, Reads .value 1 (value ++ 10 :: rest) [] (10 :: rest)

theorem NewValue.newEntry (hv : NewValue key value) {s : Bytes}
    (hs : ∃ v, s = byte '>' :: byte '>' :: v) :
    NewEntry key value s (10 :: (entryText key value ++ 10 :: s)) :=
  ⟨hs, by simp [entryText], hv.key, hv.begins, hv.reads s⟩

theorem insertEntry_eq_shift {entry : Bytes} {c : Nat} (hc : c ≤ bytes.length) :
    insertEntry entry c bytes =
      Pdf.shift (bytes.drop c) (10 :: (entry ++ 10 :: bytes.drop c)) bytes := by
  have hlen : (bytes.drop c).length ≤ bytes.length := by simp
  rw [Pdf.shift, if_pos hlen, List.length_drop, Nat.sub_sub_self hc]
  rfl

/-- Where the brackets of a parsed dictionary stand. -/
theorem closing_drop {rest after : Bytes} {members : List Member}
    (hopen : skipTrivia bytes = byte '<' :: byte '<' :: rest)
    (h : Reads .entries 1 rest members after) :
    bytes.length - (after.length + 2) ≤ bytes.length ∧
      bytes.drop (bytes.length - (after.length + 2)) = byte '>' :: byte '>' :: after := by
  have hsuf : byte '>' :: byte '>' :: after <:+ bytes := (h.entries_close rfl).trans
    ((List.suffix_cons _ _).trans (behind_of_skipTrivia hopen).1)
  obtain ⟨front, hfront⟩ := hsuf
  have hplace : bytes.length - (after.length + 2) = front.length := by simp [← hfront]
  rw [hplace]
  exact ⟨by simp [← hfront], by rw [← hfront, List.drop_left]⟩

/-- **A dictionary with an entry more.** -/
theorem pairs_insertEntry {dictionary : PdfDictionary} (hnew : NewValue key value)
    (h : PdfDictionary.parse bytes = .ok dictionary) :
    ∃ edited, PdfDictionary.parse (insertEntry (entryText key value) dictionary.closing bytes) =
        .ok edited ∧
      edited.pairs (insertEntry (entryText key value) dictionary.closing bytes) =
        dictionary.pairs bytes ++ [(key, value)] := by
  obtain ⟨rest, members, after, hopen, hreads, hend, rfl⟩ := parse_iff.mp h
  obtain ⟨hle, hdrop⟩ := closing_drop hopen hreads
  show ∃ edited, PdfDictionary.parse (insertEntry _ (bytes.length - (after.length + 2)) bytes) = _ ∧ _
  have hshift := @insertEntry_eq_shift _ (entryText key value) _ hle
  rw [hdrop] at hshift
  have hentry := hnew.newEntry (s := byte '>' :: byte '>' :: after) ⟨after, rfl⟩
  generalize hs : byte '>' :: byte '>' :: after = s at hshift hentry hdrop
  generalize ht : 10 :: (entryText key value ++ 10 :: s) = t at hshift hentry
  have hsplice := hentry.splice
  have hclose : s <:+ rest := hs ▸ hreads.entries_close rfl
  have hin : s <:+ bytes := hclose.trans
    ((List.suffix_cons _ _).trans (behind_of_skipTrivia hopen).1)
  have hr : s <:+ s ∨ Inserts 0 s t := .inl List.suffix_rfl
  obtain ⟨hopen', hrest⟩ := opening_splice hsplice hin hopen (by decide)
    (hclose.trans (List.suffix_cons _ _)) hr
  obtain ⟨-, hcons, -⟩ := cons_splice (by decide) hclose hr hrest
  obtain ⟨u, rfl⟩ := hclose
  have hreads' := Reads.extend hsplice hs.symm (hentry.reads_entries hs.symm) hreads
  rw [hcons, shift_append, ← hshift] at hopen'
  refine ⟨_, parse_iff.mpr ⟨_, _, _, hopen', hreads', hend, rfl⟩, ?_⟩
  rw [pairs_of_members hopen' hreads', pairs_of_members hopen hreads, List.map_append, List.map_map]
  congr 1
  · refine List.map_congr_left fun m hm => ?_
    obtain ⟨-, hbehind⟩ := members_inside hopen hreads hm
    have hbefore : s <:+ m.after := by
      have hlast := hreads.member_close rfl hm
      rwa [hs] at hlast
    simp only [Function.comp, Member.text_before hbehind hbefore]
    rfl
  · simp [Member.text]

/-- **An entry behind the dictionary** spoils it. -/
theorem parse_insertEntry_end {dictionary : PdfDictionary} {c : Nat} (hnew : NewValue key value)
    (h : PdfDictionary.parse bytes = .ok dictionary)
    (hc : (ascii ">>") <+: bytes.drop c) (hbehind : dictionary.closing < c) (edited : PdfDictionary) :
    PdfDictionary.parse (insertEntry (entryText key value) c bytes) ≠ .ok edited := by
  obtain ⟨rest, members, after, hopen, hreads, hend, rfl⟩ := parse_iff.mp h
  obtain ⟨hle, hdrop⟩ := closing_drop hopen hreads
  obtain ⟨v, hv⟩ := hc
  have hlen : c ≤ bytes.length := by
    by_contra hlong
    rw [List.drop_eq_nil_of_le (by omega)] at hv
    exact absurd hv (by simp [ascii])
  have hshift := @insertEntry_eq_shift _ (entryText key value) _ hlen
  have hentry := hnew.newEntry (s := bytes.drop c) ⟨v, hv.symm⟩
  generalize hs : bytes.drop c = s at hshift hentry hv
  generalize ht : 10 :: (entryText key value ++ 10 :: s) = t at hshift hentry
  have hsplice := hentry.splice
  -- the brackets found stand in what is left, and past the first byte of it
  have hsuf : s <:+ after := by
    obtain ⟨k, rfl⟩ : ∃ k, c = bytes.length - (after.length + 2) + 1 + k :=
      ⟨c - (bytes.length - (after.length + 2) + 1), by simp only at hbehind; omega⟩
    rw [← List.drop_drop, ← List.drop_drop, hdrop] at hs
    cases k with
    | zero =>
      -- they would share a byte with those of the dictionary
      have hhead : byte '>' :: after = byte '>' :: byte '>' :: v := hs.trans hv.symm
      have hafter : after = byte '>' :: v := (List.cons.inj hhead).2
      rw [hafter, skipTrivia_cons (by decide) (by decide)] at hend
      exact absurd hend (by simp)
    | succ k =>
      rw [← hs]
      exact List.drop_suffix k after
  have hr {a : Bytes} (ha : after <:+ a) : s <:+ a ∨ Inserts 0 s t := .inl (hsuf.trans ha)
  have hin : s <:+ bytes := hs ▸ List.drop_suffix c bytes
  obtain ⟨hopen', hrest⟩ := opening_splice hsplice hin hopen (by decide)
    (hreads.behind.1.trans (List.suffix_cons _ _)) (hr List.suffix_rfl)
  obtain ⟨-, hcons, hrest⟩ := cons_splice (by decide) hreads.behind.1 (hr List.suffix_rfl) hrest
  have hreads' := hreads.splice hsplice hrest (hr List.suffix_rfl)
  rw [hcons, ← hshift] at hopen'
  intro hparse
  obtain ⟨rest', members', after', hopen'', hreads'', hend'', -⟩ := parse_iff.mp hparse
  obtain rfl : Pdf.shift s t rest = rest' := by simpa using hopen'.symm.trans hopen''
  obtain rfl := hreads'.after_unique hreads''
  -- what is left holds the new entry, and no comment hides it
  obtain ⟨u, rfl⟩ := hsuf
  rw [shift_append] at hend''
  have htrivia := skipTrivia_trivia hsplice u
  have hnone : skipTriviaFrom true t ≠ [] := by
    have heq : skipTriviaFrom true t = skipTrivia t := by
      rw [hentry.inserted]
      rfl
    rw [heq, hentry.skipTrivia_eq]
    simp
  generalize skipTrivia (u ++ s) = x, skipTrivia (u ++ t) = y at htrivia hend hend''
  cases htrivia with
  | before u' hu' => exact hu' (List.append_eq_nil_iff.mp hend).1
  | edge =>
    rw [← hv] at hend
    exact absurd hend (by simp [ascii])
  | comment => exact hnone hend''

end newEntry

end Pdf

end RefineId
