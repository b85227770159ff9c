/-
  RefineId.PdfGrammar — the grammar of the strict parser.
  ════════════════════════════════════════════════════════════════════════════

  The strict parser of `pades.rs` is a set of functions on a fuel.  `Reads` is the same
  parser as a grammar: from an input a value, the rest of an array or the rest of a
  dictionary is read, and so much is left.  Every member that was read is kept as the two
  inputs around it, what was left before it and what was left after it.

  Main results:
    • `reads_of_parses`   : what the parser returns is derived by the grammar.
    • `Reads.runs`        : what the grammar derives the parser returns, on the fuel that
                            `PdfDictionary::parse` gives it.
    • `parse_iff`         : the accepted dictionaries.
    • `arrayParts_iff`    : the accepted arrays.
-/
import RefineId.PdfForm

namespace RefineId

namespace Pdf

open Lib

/-! ## §1. What a scanner leaves -/

theorem skipTriviaFrom_suffix (comment : Bool) (input : Bytes) :
    skipTriviaFrom comment input <:+ input := by
  induction input generalizing comment with
  | nil => simp [skipTriviaFrom]
  | cons b rest ih =>
    simp only [skipTriviaFrom]
    split_ifs
    · exact (ih _).trans (List.suffix_cons b rest)
    · exact (ih _).trans (List.suffix_cons b rest)
    · exact (ih _).trans (List.suffix_cons b rest)
    · exact List.suffix_rfl

theorem skipTrivia_suffix (input : Bytes) : skipTrivia input <:+ input :=
  skipTriviaFrom_suffix false input

theorem consume_eq_some {token rest after : Bytes} :
    consume token rest = some after ↔ rest = token ++ after := by
  unfold consume
  constructor
  · intro h
    split_ifs at h with hpre
    obtain ⟨t, rfl⟩ := List.isPrefixOf_iff_prefix.mp hpre
    rw [List.drop_left] at h
    rw [Option.some.inj h]
  · intro h
    rw [h, if_pos (List.isPrefixOf_iff_prefix.mpr (List.prefix_append _ _)), List.drop_left]

theorem consume_cons_self (b : UInt8) (token rest : Bytes) :
    consume (b :: token) (b :: rest) = consume token rest := by
  simp [consume]

theorem consume_cons_ne {a b : UInt8} (h : a ≠ b) (token rest : Bytes) :
    consume (a :: token) (b :: rest) = none := by
  simp [consume, h]

theorem consume_head_none {a : UInt8} {rest : Bytes} (h : ∀ r, rest ≠ a :: r) (token : Bytes) :
    consume (a :: token) rest = none := by
  cases rest with
  | nil => simp [consume]
  | cons b r =>
    refine consume_cons_ne (fun hb => h r ?_) _ _
    rw [hb]

theorem literalStringRemainder_suffix {depth : Nat} {input after : Bytes}
    (h : literalStringRemainder depth input = .ok after) :
    after <:+ input ∧ after.length < input.length := by
  fun_induction literalStringRemainder depth input with
  | case1 => simp [unreadable] at h
  | case2 => simp [unreadable] at h
  | case3 => simp [unreadable] at h
  | case4 depth c d rest' _ ih =>
    obtain ⟨hs, hl⟩ := ih h
    exact ⟨hs.trans ⟨[byte '\\', c, d], rfl⟩, by simp; omega⟩
  | case5 depth c d rest' _ ih =>
    obtain ⟨hs, hl⟩ := ih h
    exact ⟨hs.trans ⟨[byte '\\', c], rfl⟩, by simp at hl ⊢; omega⟩
  | case6 depth rest _ ih =>
    obtain ⟨_, -, hrest⟩ := bind_eq_ok.mp h
    obtain ⟨hs, hl⟩ := ih hrest
    exact ⟨hs.trans (List.suffix_cons _ _), by simp; omega⟩
  | case7 depth rest =>
    obtain rfl := Except.ok.inj h
    exact ⟨List.suffix_cons _ _, by simp⟩
  | case8 depth rest _ _ _ ih =>
    obtain ⟨hs, hl⟩ := ih h
    exact ⟨hs.trans (List.suffix_cons _ _), by simp; omega⟩
  | case9 depth b rest _ _ _ ih =>
    obtain ⟨hs, hl⟩ := ih h
    exact ⟨hs.trans (List.suffix_cons _ _), by simp; omega⟩

theorem hexStringRemainder_suffix {input after : Bytes}
    (h : hexStringRemainder input = .ok after) :
    after <:+ input ∧ after.length < input.length := by
  induction input with
  | nil => simp [hexStringRemainder, unreadable] at h
  | cons b rest ih =>
    simp only [hexStringRemainder] at h
    split_ifs at h with hb
    · obtain rfl := Except.ok.inj h
      exact ⟨List.suffix_cons _ _, by simp⟩
    · obtain ⟨hs, hl⟩ := ih h
      exact ⟨hs.trans (List.suffix_cons _ _), by simp; omega⟩

theorem nameRemainder_suffix {input decoded after : Bytes}
    (h : nameRemainder input = .ok (decoded, after)) : after <:+ input := by
  fun_induction nameRemainder input generalizing decoded with
  | case1 => simp_all
  | case2 b rest => simp_all
  | case3 h' l rest' _ _ _ _ _ ih =>
    obtain ⟨⟨name', rest''⟩, hname, heq⟩ := bind_eq_ok.mp h
    obtain ⟨-, rfl⟩ : _ ∧ rest'' = after := by simpa [pure, Except.pure] using heq
    exact (ih hname).trans ⟨[byte '#', h', l], rfl⟩
  | case4 => simp [unreadable] at h
  | case5 => simp [unreadable] at h
  | case6 b rest _ _ ih =>
    obtain ⟨⟨name', rest''⟩, hname, heq⟩ := bind_eq_ok.mp h
    obtain ⟨-, rfl⟩ : _ ∧ rest'' = after := by simpa [pure, Except.pure] using heq
    exact (ih hname).trans (List.suffix_cons _ _)

theorem nameRemainder_stop {b : UInt8} (h : isRegular b = false) (rest : Bytes) :
    nameRemainder (b :: rest) = .ok ([], b :: rest) := by
  rw [nameRemainder.eq_def]
  simp [h]

theorem nameRemainder_go {b : UInt8} (h : isRegular b = true) (hesc : b ≠ byte '#') (rest : Bytes) :
    nameRemainder (b :: rest) = (do
      let (decoded, rest') ← nameRemainder rest
      return (b :: decoded, rest')) := by
  rw [nameRemainder.eq_def]
  simp [h, hesc]

theorem nameRemainder_run {run : Bytes} (h : ∀ b ∈ run, isRegular b = true ∧ b ≠ byte '#')
    {d : UInt8} (hd : isRegular d = false) (rest : Bytes) :
    nameRemainder (run ++ d :: rest) = .ok (run, d :: rest) := by
  induction run with
  | nil => exact nameRemainder_stop hd rest
  | cons b run ih =>
    obtain ⟨hb, hesc⟩ := h b List.mem_cons_self
    rw [List.cons_append, nameRemainder_go hb hesc, ih fun c hc => h c (List.mem_cons_of_mem b hc)]
    rfl

theorem unsignedDigits_suffix {input digits after : Bytes}
    (h : unsignedDigits input = some (digits, after)) : after <:+ input := by
  unfold unsignedDigits at h
  dsimp only at h
  split_ifs at h
  obtain ⟨-, rfl⟩ : _ ∧ _ = after := by simpa using h
  exact (List.dropWhile_suffix _).trans (skipTrivia_suffix input)

theorem unsignedU16_suffix {input after : Bytes} {n : Nat}
    (h : unsignedU16 input = some (n, after)) : after <:+ input := by
  simp only [unsignedU16, Option.bind_eq_bind, Option.bind_eq_some_iff, Option.pure_def,
    Option.some.injEq, Prod.mk.injEq] at h
  obtain ⟨⟨digits, after'⟩, hd, _, -, -, rfl⟩ := h
  exact unsignedDigits_suffix hd

/-- The digits of a number after the trivia. -/
def digitsAt (rest : Bytes) : Option (Bytes × Bytes) :=
  if (rest.takeWhile isAsciiDigit).isEmpty || (rest.dropWhile isAsciiDigit).head?.any isRegular
  then none else some (rest.takeWhile isAsciiDigit, rest.dropWhile isAsciiDigit)

theorem unsignedDigits_eq (input : Bytes) : unsignedDigits input = digitsAt (skipTrivia input) := rfl

theorem unsignedU16_eq (input : Bytes) : unsignedU16 input =
    (digitsAt (skipTrivia input)).bind fun p => (parseU16 p.1).map fun n => (n, p.2) := by
  simp only [unsignedU16, unsignedDigits_eq, Option.bind_eq_bind, Option.pure_def]
  cases digitsAt (skipTrivia input) with
  | none => rfl
  | some p =>
    simp only [Option.bind_some]
    cases parseU16 p.1 <;> rfl

/-- What follows the trivia decides about the end of a reference. -/
def tailAt (rest : Bytes) : Option Bytes :=
  ((digitsAt rest).bind fun p => (parseU16 p.1).map fun n => (n, p.2)).bind
    fun p => consumeKeyword (ascii "R") (skipTrivia p.2)

/-- The part of a reference after its number. -/
def referenceTail (input : Bytes) : Option Bytes := do
  let (_, after) ← unsignedU16 input
  consumeKeyword (ascii "R") (skipTrivia after)

theorem referenceTail_eq (input : Bytes) : referenceTail input = tailAt (skipTrivia input) := by
  rw [referenceTail, unsignedU16_eq]
  rfl

theorem consumeReferenceTail_eq (first input : Bytes) :
    consumeReferenceTail first input =
      if (parseU32 first).isSome then (referenceTail input).getD input else input := by
  unfold consumeReferenceTail referenceTail
  cases parseU32 first with
  | none => rfl
  | some n =>
    cases hu : unsignedU16 input with
    | none => rfl
    | some p => rfl

theorem consumeKeyword_eq_some {keyword rest after : Bytes} :
    consumeKeyword keyword rest = some after ↔
      rest = keyword ++ after ∧ after.head?.any isRegular = false := by
  simp only [consumeKeyword, Option.bind_eq_bind, Option.bind_eq_some_iff, consume_eq_some]
  constructor
  · intro hx
    obtain ⟨after', rfl, h⟩ := hx
    split_ifs at h with hreg
    obtain rfl := Option.some.inj h
    exact ⟨rfl, by simpa using hreg⟩
  · intro hx
    obtain ⟨rfl, hreg⟩ := hx
    exact ⟨after, rfl, by rw [if_neg (by simp [hreg])]⟩

theorem consumeReferenceTail_suffix (first input : Bytes) :
    consumeReferenceTail first input <:+ input := by
  unfold consumeReferenceTail
  split
  · exact List.suffix_rfl
  · split
    · exact List.suffix_rfl
    next _ _ _ _ after hu =>
      cases hk : consumeKeyword (ascii "R") (skipTrivia after) with
      | none => exact List.suffix_rfl
      | some after' =>
        obtain ⟨heq, -⟩ := consumeKeyword_eq_some.mp hk
        have hs : after' <:+ skipTrivia after := ⟨_, heq.symm⟩
        exact hs.trans ((skipTrivia_suffix after).trans (unsignedU16_suffix hu))

theorem atom_eq_ok {input first after : Bytes} (h : atom input = .ok (first, after)) :
    first = input.takeWhile isRegular ∧ after = input.dropWhile isRegular ∧
      ∃ b rest, input = b :: rest ∧ isRegular b = true := by
  unfold atom at h
  split_ifs at h with hne
  · simp [unreadable] at h
  obtain ⟨rfl, rfl⟩ : _ ∧ _ := by simpa using h
  refine ⟨rfl, rfl, ?_⟩
  cases input with
  | nil => simp at hne
  | cons b rest =>
    refine ⟨b, rest, rfl, ?_⟩
    by_contra hb
    simp [hb] at hne

theorem atom_cons {b : UInt8} (hb : isRegular b = true) (rest : Bytes) :
    Pdf.atom (b :: rest) =
      .ok ((b :: rest).takeWhile isRegular, (b :: rest).dropWhile isRegular) := by
  rw [atom, if_neg]
  simp [hb]

/-- A run of bytes that a byte outside the class ends. -/
theorem run_split {class_ : UInt8 → Bool} {run rest : Bytes} (hrun : ∀ b ∈ run, class_ b = true)
    (hrest : rest.head?.any class_ = false) :
    (run ++ rest).takeWhile class_ = run ∧ (run ++ rest).dropWhile class_ = rest := by
  rw [List.takeWhile_append_of_pos hrun, List.dropWhile_append_of_pos hrun]
  cases rest with
  | nil => simp
  | cons b rest =>
    have hb : class_ b = false := by simpa using hrest
    simp [hb]

/-! ## §2. The grammar -/

/-- What is being read: a value, or the rest of an array or of a dictionary. -/
inductive Part where
  | value
  | items
  | entries
  deriving Repr, DecidableEq

/-- A member of an array or of a dictionary: the name of its key, what is left at its first
    byte and what is left after it. -/
structure Member where
  key : Bytes
  start : Bytes
  after : Bytes
  deriving Repr, DecidableEq

/-- The bytes of a member. -/
def Member.text (m : Member) : Bytes := m.start.take (m.start.length - m.after.length)

/-- **The grammar**: part, depth, input, members read and what is left. -/
inductive Reads : Part → Nat → Bytes → List Member → Bytes → Prop
  | dictionary {depth : Nat} {input rest after : Bytes} {members : List Member}
      (hopen : skipTrivia input = byte '<' :: byte '<' :: rest)
      (hdepth : depth + 1 ≤ maxPdfValueDepth) (h : Reads .entries (depth + 1) rest members after) :
      Reads .value depth input [] after
  | array {depth : Nat} {input rest after : Bytes} {members : List Member}
      (hopen : skipTrivia input = byte '[' :: rest)
      (hdepth : depth + 1 ≤ maxPdfValueDepth) (h : Reads .items (depth + 1) rest members after) :
      Reads .value depth input [] after
  | literal {depth : Nat} {input rest after : Bytes} (hopen : skipTrivia input = byte '(' :: rest)
      (h : literalStringRemainder 1 rest = .ok after) : Reads .value depth input [] after
  | hex {depth : Nat} {input rest after : Bytes} (hopen : skipTrivia input = byte '<' :: rest)
      (hsingle : rest.head? ≠ some (byte '<')) (h : hexStringRemainder rest = .ok after) :
      Reads .value depth input [] after
  | name {depth : Nat} {input rest decoded after : Bytes}
      (hopen : skipTrivia input = byte '/' :: rest)
      (h : nameRemainder rest = .ok (decoded, after)) : Reads .value depth input [] after
  | atom {depth : Nat} {input first after : Bytes}
      (h : atom (skipTrivia input) = .ok (first, after)) :
      Reads .value depth input [] (consumeReferenceTail first after)
  | itemsEnd {depth : Nat} {input after : Bytes} (h : skipTrivia input = byte ']' :: after) :
      Reads .items depth input [] after
  | item {depth : Nat} {input after rest : Bytes} {members : List Member}
      (hitem : Reads .value depth (skipTrivia input) [] after)
      (hitems : Reads .items depth after members rest) :
      Reads .items depth input (⟨[], skipTrivia input, after⟩ :: members) rest
  | entriesEnd {depth : Nat} {input after : Bytes}
      (h : skipTrivia input = byte '>' :: byte '>' :: after) : Reads .entries depth input [] after
  | entry {depth : Nat} {input named key after rest : Bytes} {members : List Member}
      (hname : Pdf.name (skipTrivia input) = .ok (key, named))
      (hvalue : Reads .value depth (skipTrivia named) [] after)
      (hentries : Reads .entries depth after members rest) :
      Reads .entries depth input (⟨key, skipTrivia named, after⟩ :: members) rest

theorem name_eq_ok {input key named : Bytes} (h : Pdf.name input = .ok (key, named)) :
    ∃ rest, input = byte '/' :: rest ∧ nameRemainder rest = .ok (key, named) := by
  unfold name at h
  cases hc : consume (ascii "/") input with
  | none => simp [hc, unreadable] at h
  | some rest =>
    rw [hc] at h
    exact ⟨rest, consume_eq_some.mp hc, h⟩

theorem name_suffix {input key named : Bytes} (h : Pdf.name input = .ok (key, named)) :
    named <:+ input := by
  obtain ⟨rest, rfl, hrem⟩ := name_eq_ok h
  exact (nameRemainder_suffix hrem).trans (List.suffix_cons _ _)

theorem name_cons (rest : Bytes) : Pdf.name (byte '/' :: rest) = nameRemainder rest := rfl

/-- A value begins, and not with a closing bracket. -/
theorem Reads.value_head {depth : Nat} {input after : Bytes} {members : List Member}
    (h : Reads .value depth input members after) :
    ∃ b rest, skipTrivia input = b :: rest ∧ b ≠ byte ']' := by
  cases h with
  | dictionary hopen => exact ⟨_, _, hopen, by decide⟩
  | array hopen => exact ⟨_, _, hopen, by decide⟩
  | literal hopen => exact ⟨_, _, hopen, by decide⟩
  | hex hopen => exact ⟨_, _, hopen, by decide⟩
  | name hopen => exact ⟨_, _, hopen, by decide⟩
  | atom h =>
    obtain ⟨-, -, b, rest, heq, hb⟩ := atom_eq_ok h
    refine ⟨b, rest, heq, fun hx => ?_⟩
    rw [hx] at hb
    exact absurd hb (by decide)

/-- Trivia ends at a byte that is none. -/
theorem skipTrivia_cons {b : UInt8} (hspace : isWhitespace b = false) (hcomment : b ≠ byte '%')
    (rest : Bytes) : skipTrivia (b :: rest) = b :: rest := by
  simp [skipTrivia, skipTriviaFrom, hspace, hcomment]

theorem skipTrivia_space {d : UInt8} (h : isWhitespace d = true) (rest : Bytes) :
    skipTrivia (d :: rest) = skipTrivia rest := by
  simp [skipTrivia, skipTriviaFrom, h]

theorem skipTrivia_skipTrivia (input : Bytes) : skipTrivia (skipTrivia input) = skipTrivia input := by
  have hgo : ∀ comment, skipTrivia (skipTriviaFrom comment input) = skipTriviaFrom comment input := by
    induction input with
    | nil => intro comment; rfl
    | cons b rest ih =>
      intro comment
      simp only [skipTriviaFrom]
      split_ifs with h1 h2 h3
      · exact ih _
      · exact ih _
      · exact ih _
      · exact skipTrivia_cons (by simpa using h2) h3 rest
  exact hgo false

/-- A regular byte ends trivia. -/
theorem skipTrivia_regular {b : UInt8} (h : isRegular b = true) (rest : Bytes) :
    skipTrivia (b :: rest) = b :: rest := by
  refine skipTrivia_cons ?_ ?_ rest
  · by_contra hspace
    rw [Bool.not_eq_false] at hspace
    rw [isRegular, hspace] at h
    exact absurd h (by simp)
  · intro hb
    rw [hb] at h
    exact absurd h (by decide)

theorem whitespace_not_regular {d : UInt8} (h : isWhitespace d = true) : isRegular d = false := by
  simp [isRegular, h]

theorem isAsciiDigit_regular {b : UInt8} (h : isRegular b = false) : isAsciiDigit b = false := by
  have hall : ∀ i : Fin 256, isRegular (UInt8.ofFin i) = false →
      isAsciiDigit (UInt8.ofFin i) = false := by
    decide +kernel
  exact hall b.toFin h

theorem digit_regular {b : UInt8} (h : isAsciiDigit b = true) : isRegular b = true := by
  by_contra hb
  rw [Bool.not_eq_true] at hb
  rw [isAsciiDigit_regular hb] at h
  exact absurd h (by simp)

/-- A value that starts after the trivia does not start with `]`. -/
theorem Reads.not_unbracket {depth : Nat} {input after : Bytes} {members : List Member}
    (h : Reads .value depth (skipTrivia input) members after) (r : Bytes) :
    skipTrivia input ≠ byte ']' :: r := by
  intro heq
  obtain ⟨b, rest, hb, hne⟩ := h.value_head
  rw [heq, skipTrivia_cons (by decide) (by decide)] at hb
  exact hne (List.cons.inj hb).1.symm

/-- `after` stands at the end of `input`, and is shorter. -/
def Behind (after input : Bytes) : Prop := after <:+ input ∧ after.length < input.length

theorem Behind.trans_suffix {a b c : Bytes} (h : Behind a b) (hs : b <:+ c) : Behind a c :=
  ⟨h.1.trans hs, h.2.trans_le hs.length_le⟩

theorem Behind.of_suffix {a b c : Bytes} (hs : a <:+ b) (h : Behind b c) : Behind a c :=
  ⟨hs.trans h.1, hs.length_le.trans_lt h.2⟩

theorem behind_cons (b : UInt8) (rest : Bytes) : Behind rest (b :: rest) :=
  ⟨List.suffix_cons b rest, by simp⟩

/-- What follows the first byte after the trivia. -/
theorem behind_of_skipTrivia {input rest : Bytes} {b : UInt8} (h : skipTrivia input = b :: rest) :
    Behind rest input :=
  (behind_cons b rest).trans_suffix (h ▸ skipTrivia_suffix input)

/-- **What is left** is shorter than the input, and stands at its end. -/
theorem Reads.behind {part : Part} {depth : Nat} {input after : Bytes} {members : List Member}
    (h : Reads part depth input members after) : Behind after input := by
  induction h with
  | dictionary hopen _ _ ih =>
    exact Behind.of_suffix (ih.1.trans (List.suffix_cons _ _)) (behind_of_skipTrivia hopen)
  | array hopen _ _ ih => exact Behind.of_suffix ih.1 (behind_of_skipTrivia hopen)
  | literal hopen h =>
    exact Behind.of_suffix (literalStringRemainder_suffix h).1 (behind_of_skipTrivia hopen)
  | hex hopen _ h =>
    exact Behind.of_suffix (hexStringRemainder_suffix h).1 (behind_of_skipTrivia hopen)
  | name hopen h => exact Behind.of_suffix (nameRemainder_suffix h) (behind_of_skipTrivia hopen)
  | @atom _ input _ _ h =>
    obtain ⟨-, rfl, b, rest, heq, hb⟩ := atom_eq_ok h
    have hdrop : (skipTrivia input).dropWhile isRegular <:+ rest := by
      rw [heq, List.dropWhile_cons_of_pos hb]
      exact List.dropWhile_suffix _
    exact Behind.of_suffix ((consumeReferenceTail_suffix _ _).trans hdrop) (behind_of_skipTrivia heq)
  | itemsEnd h => exact behind_of_skipTrivia h
  | item _ _ ihItem ihItems =>
    exact Behind.of_suffix ihItems.1 (ihItem.trans_suffix (skipTrivia_suffix _))
  | entriesEnd h => exact Behind.of_suffix (List.suffix_cons _ _) (behind_of_skipTrivia h)
  | entry hname _ _ ihValue ihEntries =>
    obtain ⟨rest, heq, hrem⟩ := name_eq_ok hname
    have hnamed := Behind.of_suffix (nameRemainder_suffix hrem) (behind_of_skipTrivia heq)
    exact Behind.of_suffix ihEntries.1
      (Behind.of_suffix (ihValue.1.trans (skipTrivia_suffix _)) hnamed)

/-- Every member stands in the input. -/
theorem Reads.members {part : Part} {depth : Nat} {input after : Bytes} {members : List Member}
    (h : Reads part depth input members after) {m : Member} (hm : m ∈ members) :
    m.start <:+ input ∧ Behind m.after m.start := by
  induction h with
  | dictionary => simp at hm
  | array => simp at hm
  | literal => simp at hm
  | hex => simp at hm
  | name => simp at hm
  | atom => simp at hm
  | itemsEnd => simp at hm
  | entriesEnd => simp at hm
  | item hitem _ _ ih =>
    rcases List.mem_cons.mp hm with rfl | hm
    · exact ⟨skipTrivia_suffix _, hitem.behind⟩
    · obtain ⟨hs, hb⟩ := ih hm
      exact ⟨hs.trans (hitem.behind.1.trans (skipTrivia_suffix _)), hb⟩
  | entry hname hvalue _ _ ih =>
    obtain ⟨rest, heq, hrem⟩ := name_eq_ok hname
    have hnamed := (skipTrivia_suffix _).trans
      ((nameRemainder_suffix hrem).trans (behind_of_skipTrivia heq).1)
    rcases List.mem_cons.mp hm with rfl | hm
    · exact ⟨hnamed, hvalue.behind⟩
    · obtain ⟨hs, hb⟩ := ih hm
      exact ⟨hs.trans (hvalue.behind.1.trans hnamed), hb⟩

/-- Every member of an array or of a dictionary ends before it does. -/
theorem Reads.member_after {part : Part} {depth : Nat} {input after : Bytes} {members : List Member}
    (h : Reads part depth input members after) {m : Member} (hm : m ∈ members) :
    Behind after m.after := by
  induction h with
  | dictionary => simp at hm
  | array => simp at hm
  | literal => simp at hm
  | hex => simp at hm
  | name => simp at hm
  | atom => simp at hm
  | itemsEnd => simp at hm
  | entriesEnd => simp at hm
  | item _ hitems _ ih =>
    rcases List.mem_cons.mp hm with rfl | hm
    · exact hitems.behind
    · exact ih hm
  | entry _ _ hentries _ ih =>
    rcases List.mem_cons.mp hm with rfl | hm
    · exact hentries.behind
    · exact ih hm

/-- A member starts where the one before it has ended, or later. -/
theorem Reads.in_order {part : Part} {depth : Nat} {input after : Bytes} {members : List Member}
    (h : Reads part depth input members after) :
    members.Pairwise fun m m' => m'.start <:+ m.after := by
  induction h with
  | dictionary => exact .nil
  | array => exact .nil
  | literal => exact .nil
  | hex => exact .nil
  | name => exact .nil
  | atom => exact .nil
  | itemsEnd => exact .nil
  | entriesEnd => exact .nil
  | item _ hitems _ ih => exact .cons (fun m hm => (hitems.members hm).1) ih
  | entry _ _ hentries _ ih => exact .cons (fun m hm => (hentries.members hm).1) ih

/-- The bytes of a member stand between its two inputs. -/
theorem Member.text_append {m : Member} (h : m.after <:+ m.start) : m.start = m.text ++ m.after := by
  obtain ⟨text, htext⟩ := h
  rw [Member.text, ← htext]
  simp

/-! ## §3. The parser and the grammar -/

/-- The entry of the parsed dictionary, in a source of `total` bytes. -/
def Member.entry (total : Nat) (m : Member) : PdfDictionaryEntry :=
  ⟨m.key, ⟨total - m.start.length, total - m.after.length⟩⟩

/-- What the function of a part returns for the members that were read. -/
def Runs : Part → Nat → Nat → Bytes → List Member → Bytes → Prop
  | .value, fuel, depth, input, _, after => value fuel depth input = .ok after
  | .items, fuel, depth, input, _, after => arrayRemainder fuel depth input = .ok after
  | .entries, fuel, depth, input, members, after => ∀ total,
    dictionaryEntries fuel depth total input =
      .ok (⟨members.map (Member.entry total), total - (after.length + 2)⟩, after)

/-- The fuel a part of so many bytes may use. -/
def Part.fuel : Part → Nat → Nat
  | .value, consumed => 2 * consumed
  | .items, consumed => 2 * consumed + 1
  | .entries, consumed => 2 * consumed + 1

section heads
variable {fuel depth : Nat} {input rest : Bytes}

theorem value_dictionary (h : skipTrivia input = byte '<' :: byte '<' :: rest) :
    value (fuel + 1) depth input = (do
      checkDepth (depth + 1)
      let (_, after) ← dictionaryEntries fuel (depth + 1) 0 rest
      return after) := by
  have hopen : consume (ascii "<<") (byte '<' :: byte '<' :: rest) = some rest :=
    consume_eq_some.mpr rfl
  simp only [value, h, hopen]

theorem value_array (h : skipTrivia input = byte '[' :: rest) :
    value (fuel + 1) depth input = (do
      checkDepth (depth + 1)
      arrayRemainder fuel (depth + 1) rest) := by
  have hdict : consume (ascii "<<") (byte '[' :: rest) = none :=
    consume_cons_ne (by decide) _ _
  have hopen : consume (ascii "[") (byte '[' :: rest) = some rest := consume_eq_some.mpr rfl
  simp only [value, h, hdict, hopen]

theorem value_literal (h : skipTrivia input = byte '(' :: rest) :
    value (fuel + 1) depth input = literalStringRemainder 1 rest := by
  have hdict : consume (ascii "<<") (byte '(' :: rest) = none :=
    consume_cons_ne (by decide) _ _
  have harray : consume (ascii "[") (byte '(' :: rest) = none := consume_cons_ne (by decide) _ _
  have hopen : consume (ascii "(") (byte '(' :: rest) = some rest := consume_eq_some.mpr rfl
  simp only [value, h, hdict, harray, hopen]

theorem value_hex (h : skipTrivia input = byte '<' :: rest)
    (hsingle : rest.head? ≠ some (byte '<')) :
    value (fuel + 1) depth input = hexStringRemainder rest := by
  have hdict : consume (ascii "<<") (byte '<' :: rest) = none := by
    rw [show ascii "<<" = byte '<' :: [byte '<'] from rfl, consume_cons_self]
    refine consume_head_none (fun r hr => hsingle ?_) _
    rw [hr]
    rfl
  have harray : consume (ascii "[") (byte '<' :: rest) = none := consume_cons_ne (by decide) _ _
  have hstring : consume (ascii "(") (byte '<' :: rest) = none := consume_cons_ne (by decide) _ _
  have hopen : consume (ascii "<") (byte '<' :: rest) = some rest := consume_eq_some.mpr rfl
  simp only [value, h, hdict, harray, hstring, hopen]

theorem value_name (h : skipTrivia input = byte '/' :: rest) :
    value (fuel + 1) depth input = (do
      let (_, after) ← nameRemainder rest
      return after) := by
  have hdict : consume (ascii "<<") (byte '/' :: rest) = none :=
    consume_cons_ne (by decide) _ _
  have harray : consume (ascii "[") (byte '/' :: rest) = none := consume_cons_ne (by decide) _ _
  have hstring : consume (ascii "(") (byte '/' :: rest) = none := consume_cons_ne (by decide) _ _
  have hhex : consume (ascii "<") (byte '/' :: rest) = none := consume_cons_ne (by decide) _ _
  have hslash : (ascii "/").isPrefixOf (byte '/' :: rest) = true :=
    List.isPrefixOf_iff_prefix.mpr ⟨rest, rfl⟩
  have hname : Pdf.name (byte '/' :: rest) = nameRemainder rest := by
    have hc : consume (ascii "/") (byte '/' :: rest) = some rest := consume_eq_some.mpr rfl
    simp only [name, hc]
  simp only [value, h, hdict, harray, hstring, hhex, hslash, if_true, hname]

/-- Any other first byte starts an atom, or nothing. -/
theorem value_atom (hdict : ∀ r, skipTrivia input ≠ byte '<' :: r)
    (harray : ∀ r, skipTrivia input ≠ byte '[' :: r)
    (hstring : ∀ r, skipTrivia input ≠ byte '(' :: r)
    (hslash : ∀ r, skipTrivia input ≠ byte '/' :: r) :
    value (fuel + 1) depth input = (do
      let (first, after) ← atom (skipTrivia input)
      return consumeReferenceTail first after) := by
  have h1 : consume (ascii "<<") (skipTrivia input) = none := consume_head_none hdict _
  have h2 : consume (ascii "[") (skipTrivia input) = none := consume_head_none harray _
  have h3 : consume (ascii "(") (skipTrivia input) = none := consume_head_none hstring _
  have h4 : consume (ascii "<") (skipTrivia input) = none := consume_head_none hdict _
  have h5 : (ascii "/").isPrefixOf (skipTrivia input) = false := by
    rw [Bool.eq_false_iff]
    intro hp
    obtain ⟨r, hr⟩ := List.isPrefixOf_iff_prefix.mp hp
    exact hslash r hr.symm
  simp only [value, h1, h2, h3, h4, h5, if_false, Bool.false_eq_true]

theorem arrayRemainder_end (h : skipTrivia input = byte ']' :: rest) :
    arrayRemainder (fuel + 1) depth input = .ok rest := by
  have hopen : consume (ascii "]") (byte ']' :: rest) = some rest := consume_eq_some.mpr rfl
  simp only [arrayRemainder, h, hopen]

theorem arrayRemainder_item (h : ∀ r, skipTrivia input ≠ byte ']' :: r) :
    arrayRemainder (fuel + 1) depth input = (do
      let after ← value fuel depth (skipTrivia input)
      arrayRemainder fuel depth after) := by
  have hnone : consume (ascii "]") (skipTrivia input) = none := consume_head_none h _
  simp only [arrayRemainder, hnone]

theorem dictionaryEntries_end {total : Nat}
    (h : skipTrivia input = byte '>' :: byte '>' :: rest) :
    dictionaryEntries (fuel + 1) depth total input =
      .ok (⟨[], total - (rest.length + 2)⟩, rest) := by
  have hopen : consume (ascii ">>") (byte '>' :: byte '>' :: rest) = some rest :=
    consume_eq_some.mpr rfl
  simp only [dictionaryEntries, h, hopen, List.length_cons]

theorem dictionaryEntries_entry {total : Nat}
    (h : ∀ r, skipTrivia input ≠ byte '>' :: byte '>' :: r) :
    dictionaryEntries (fuel + 1) depth total input = (do
      let (key, named) ← Pdf.name (skipTrivia input)
      let after ← value fuel depth (skipTrivia named)
      let (dictionary, rest) ← dictionaryEntries fuel depth total after
      return (⟨Member.entry total ⟨key, skipTrivia named, after⟩ :: dictionary.entries,
        dictionary.closing⟩, rest)) := by
  have hnone : consume (ascii ">>") (skipTrivia input) = none := by
    rw [← Option.not_isSome_iff_eq_none, Option.isSome_iff_exists]
    intro hx
    obtain ⟨r, hr⟩ := hx
    exact h r (consume_eq_some.mp hr)
  simp only [dictionaryEntries, hnone]
  rfl

end heads

/-- The first bytes of the other values start no atom. -/
theorem atom_head {input first after : Bytes} (h : atom input = .ok (first, after)) {b : UInt8}
    (hb : isRegular b = false) (r : Bytes) : input ≠ b :: r := by
  obtain ⟨-, -, c, rest, rfl, hc⟩ := atom_eq_ok h
  intro heq
  rw [(List.cons.inj heq).1, hb] at hc
  exact absurd hc (by simp)

theorem checkDepth_ok {depth : Nat} (h : depth ≤ maxPdfValueDepth) : checkDepth depth = .ok () := by
  simp [checkDepth, ensure, h]

/-- **The parser finds every derivation.** -/
theorem Reads.runs {part : Part} {depth : Nat} {input after : Bytes} {members : List Member}
    (h : Reads part depth input members after) {fuel : Nat}
    (hfuel : part.fuel (input.length - after.length) ≤ fuel) :
    Runs part fuel depth input members after := by
  induction h generalizing fuel with
  | dictionary hopen hdepth h ih =>
    have hrest := (behind_of_skipTrivia hopen).2
    have hinner := h.behind.2
    simp only [Part.fuel, List.length_cons] at hfuel hrest
    obtain ⟨f, rfl⟩ : ∃ f, fuel = f + 1 := ⟨fuel - 1, by omega⟩
    have hrun : ∀ total, dictionaryEntries f _ total _ = _ := ih (by simp only [Part.fuel]; omega)
    simp only [Runs, value_dictionary hopen, checkDepth_ok hdepth, hrun]
    rfl
  | array hopen hdepth h ih =>
    have hrest := (behind_of_skipTrivia hopen).2
    have hinner := h.behind.2
    simp only [Part.fuel] at hfuel
    obtain ⟨f, rfl⟩ : ∃ f, fuel = f + 1 := ⟨fuel - 1, by omega⟩
    have hrun : arrayRemainder f _ _ = _ := ih (by simp only [Part.fuel]; omega)
    simp only [Runs, value_array hopen, checkDepth_ok hdepth, hrun]
    rfl
  | literal hopen h =>
    have hrest := (behind_of_skipTrivia hopen).2
    have hinner := (literalStringRemainder_suffix h).2
    simp only [Part.fuel] at hfuel
    obtain ⟨f, rfl⟩ : ∃ f, fuel = f + 1 := ⟨fuel - 1, by omega⟩
    simp only [Runs, value_literal hopen, h]
  | hex hopen hsingle h =>
    have hrest := (behind_of_skipTrivia hopen).2
    have hinner := (hexStringRemainder_suffix h).2
    simp only [Part.fuel] at hfuel
    obtain ⟨f, rfl⟩ : ∃ f, fuel = f + 1 := ⟨fuel - 1, by omega⟩
    simp only [Runs, value_hex hopen hsingle, h]
  | name hopen h =>
    have hrest := (behind_of_skipTrivia hopen).2
    have hinner := (nameRemainder_suffix h).length_le
    simp only [Part.fuel] at hfuel
    obtain ⟨f, rfl⟩ : ∃ f, fuel = f + 1 := ⟨fuel - 1, by omega⟩
    simp only [Runs, value_name hopen, h]
    rfl
  | @atom depth _ _ _ h =>
    have hbehind := (Reads.atom h : Reads .value depth _ _ _).behind.2
    simp only [Part.fuel] at hfuel
    obtain ⟨f, rfl⟩ : ∃ f, fuel = f + 1 := ⟨fuel - 1, by omega⟩
    have hvalue : value (f + 1) depth _ = _ := value_atom (atom_head h (by decide))
      (atom_head h (by decide)) (atom_head h (by decide)) (atom_head h (by decide))
    simp only [Runs, hvalue, h]
    rfl
  | itemsEnd h =>
    simp only [Part.fuel] at hfuel
    obtain ⟨f, rfl⟩ : ∃ f, fuel = f + 1 := ⟨fuel - 1, by omega⟩
    simp only [Runs, arrayRemainder_end h]
  | @item _ input after rest _ hitem hitems ihItem ihItems =>
    have hskip := (skipTrivia_suffix input).length_le
    have hfirst := hitem.behind.2
    have hothers := hitems.behind.2
    simp only [Part.fuel] at hfuel
    obtain ⟨f, rfl⟩ : ∃ f, fuel = f + 1 := ⟨fuel - 1, by omega⟩
    have hrunItem : value f _ _ = _ := ihItem (by simp only [Part.fuel]; omega)
    have hrunItems : arrayRemainder f _ _ = _ := ihItems (by simp only [Part.fuel]; omega)
    simp only [Runs, arrayRemainder_item hitem.not_unbracket, hrunItem]
    exact hrunItems
  | entriesEnd h =>
    intro total
    simp only [Part.fuel] at hfuel
    obtain ⟨f, rfl⟩ : ∃ f, fuel = f + 1 := ⟨fuel - 1, by omega⟩
    simp only [dictionaryEntries_end h, List.map_nil]
  | @entry _ input named _ after rest members hname hvalue hentries ihValue ihEntries =>
    intro total
    obtain ⟨tail, heq, hrem⟩ := name_eq_ok hname
    have hnamed := (Behind.of_suffix (nameRemainder_suffix hrem) (behind_of_skipTrivia heq)).2
    have hskip := (skipTrivia_suffix named).length_le
    have hfirst := hvalue.behind.2
    have hothers := hentries.behind.2
    simp only [Part.fuel] at hfuel
    obtain ⟨f, rfl⟩ : ∃ f, fuel = f + 1 := ⟨fuel - 1, by omega⟩
    have hrunValue : value f _ _ = _ := ihValue (by simp only [Part.fuel]; omega)
    have hrunEntries : ∀ total, dictionaryEntries f _ total _ = _ :=
      ihEntries (by simp only [Part.fuel]; omega)
    have hhead : ∀ r, skipTrivia input ≠ byte '>' :: byte '>' :: r := by
      intro r hr
      rw [heq] at hr
      exact absurd (List.cons.inj hr).1 (by decide)
    rw [dictionaryEntries_entry hhead, hname]
    simp only [bind, Except.bind, hrunValue, hrunEntries, pure, Except.pure, List.map_cons]

/-- What is left is determined by the input. -/
theorem Reads.after_unique {part : Part} {depth : Nat} {input after after' : Bytes}
    {members members' : List Member} (h : Reads part depth input members after)
    (h' : Reads part depth input members' after') : after = after' := by
  have hle : ∀ a : Bytes, part.fuel (input.length - a.length) ≤ 2 * input.length + 1 := by
    intro a
    cases part <;> simp only [Part.fuel] <;> omega
  have hrun := h.runs (hle after)
  have hrun' := h'.runs (hle after')
  cases part with
  | value => exact Except.ok.inj (hrun.symm.trans hrun')
  | items => exact Except.ok.inj (hrun.symm.trans hrun')
  | entries => exact (Prod.mk.inj (Except.ok.inj ((hrun 0).symm.trans (hrun' 0)))).2

theorem checkDepth_eq_ok {depth : Nat} {u : Unit} (h : checkDepth depth = .ok u) :
    depth ≤ maxPdfValueDepth := by
  simpa using ensure_eq_ok.mp h

/-- A value the parser returned, by its first byte. -/
theorem reads_of_value {fuel depth : Nat} {input after : Bytes}
    (hitems : ∀ {d x r}, arrayRemainder fuel d x = .ok r → ∃ ms, Reads .items d x ms r)
    (hentries : ∀ {d total x D r}, dictionaryEntries fuel d total x = .ok (D, r) →
      ∃ ms, Reads .entries d x ms r)
    (h : value (fuel + 1) depth input = .ok after) : Reads .value depth input [] after := by
  by_cases hless : ∃ r, skipTrivia input = byte '<' :: r
  · obtain ⟨r, hr⟩ := hless
    by_cases hdouble : r.head? = some (byte '<')
    · obtain ⟨rest, rfl⟩ : ∃ rest, r = byte '<' :: rest := by
        cases r with
        | nil => simp at hdouble
        | cons b rest => exact ⟨rest, by rw [Option.some.inj hdouble]⟩
      rw [value_dictionary hr] at h
      obtain ⟨_, hdepth, h⟩ := bind_eq_ok.mp h
      obtain ⟨⟨D, after'⟩, hdict, h⟩ := bind_eq_ok.mp h
      obtain rfl := pure_eq_ok.mp h
      obtain ⟨ms, hms⟩ := hentries hdict
      exact .dictionary hr (checkDepth_eq_ok hdepth) hms
    · rw [value_hex hr hdouble] at h
      exact .hex hr hdouble h
  by_cases hbracket : ∃ r, skipTrivia input = byte '[' :: r
  · obtain ⟨r, hr⟩ := hbracket
    rw [value_array hr] at h
    obtain ⟨_, hdepth, h⟩ := bind_eq_ok.mp h
    obtain ⟨ms, hms⟩ := hitems h
    exact .array hr (checkDepth_eq_ok hdepth) hms
  by_cases hparen : ∃ r, skipTrivia input = byte '(' :: r
  · obtain ⟨r, hr⟩ := hparen
    rw [value_literal hr] at h
    exact .literal hr h
  by_cases hslash : ∃ r, skipTrivia input = byte '/' :: r
  · obtain ⟨r, hr⟩ := hslash
    rw [value_name hr] at h
    obtain ⟨⟨decoded, after'⟩, hname, h⟩ := bind_eq_ok.mp h
    obtain rfl := pure_eq_ok.mp h
    exact .name hr hname
  rw [not_exists] at hless hbracket hparen hslash
  rw [value_atom hless hbracket hparen hslash] at h
  obtain ⟨⟨first, after'⟩, hatom, h⟩ := bind_eq_ok.mp h
  obtain rfl := pure_eq_ok.mp h
  exact .atom hatom

/-- **What the parser returns is derived.**  The three functions share their fuel. -/
theorem reads_of_parses (fuel : Nat) :
    (∀ {d x r}, value fuel d x = .ok r → Reads .value d x [] r) ∧
    (∀ {d x r}, arrayRemainder fuel d x = .ok r → ∃ ms, Reads .items d x ms r) ∧
    (∀ {d total x D r}, dictionaryEntries fuel d total x = .ok (D, r) →
      ∃ ms, Reads .entries d x ms r) := by
  induction fuel with
  | zero =>
    refine ⟨?_, ?_, ?_⟩
    · intro d x r h
      simp [value, unreadable] at h
    · intro d x r h
      simp [arrayRemainder, unreadable] at h
    · intro d total x D r h
      simp [dictionaryEntries, unreadable] at h
  | succ fuel ih =>
    obtain ⟨ihValue, ihItems, ihEntries⟩ := ih
    refine ⟨reads_of_value ihItems ihEntries, ?_, ?_⟩
    · intro d x r h
      by_cases hend : ∃ rest, skipTrivia x = byte ']' :: rest
      · obtain ⟨rest, hrest⟩ := hend
        rw [arrayRemainder_end hrest] at h
        obtain rfl := Except.ok.inj h
        exact ⟨[], .itemsEnd hrest⟩
      · rw [not_exists] at hend
        rw [arrayRemainder_item hend] at h
        obtain ⟨after, hvalue, h⟩ := bind_eq_ok.mp h
        obtain ⟨ms, hms⟩ := ihItems h
        exact ⟨_, .item (ihValue hvalue) hms⟩
    · intro d total x D r h
      by_cases hend : ∃ rest, skipTrivia x = byte '>' :: byte '>' :: rest
      · obtain ⟨rest, hrest⟩ := hend
        rw [dictionaryEntries_end hrest] at h
        obtain ⟨-, rfl⟩ : _ ∧ rest = r := by simpa using h
        exact ⟨[], .entriesEnd hrest⟩
      · rw [not_exists] at hend
        rw [dictionaryEntries_entry hend] at h
        obtain ⟨⟨key, named⟩, hname, h⟩ := bind_eq_ok.mp h
        obtain ⟨after, hvalue, h⟩ := bind_eq_ok.mp h
        obtain ⟨⟨D', r'⟩, hothers, h⟩ := bind_eq_ok.mp h
        obtain ⟨-, rfl⟩ := Prod.mk.inj (pure_eq_ok.mp h)
        obtain ⟨ms, hms⟩ := ihEntries hothers
        exact ⟨_, .entry hname (ihValue hvalue) hms⟩

/-- The end of the input, but for trivia. -/
theorem requireEnd_eq_ok {rest : Bytes} {u : Unit} :
    requireEnd rest = .ok u ↔ skipTrivia rest = [] := by
  rw [requireEnd, ensure_eq_ok, List.isEmpty_iff]

/-- **The accepted dictionaries**: their members, and nothing but trivia behind. -/
theorem parse_iff {bytes : Bytes} {D : PdfDictionary} :
    PdfDictionary.parse bytes = .ok D ↔
      ∃ rest members after, skipTrivia bytes = byte '<' :: byte '<' :: rest ∧
        Reads .entries 1 rest members after ∧ skipTrivia after = [] ∧
        D = ⟨members.map (Member.entry bytes.length), bytes.length - (after.length + 2)⟩ := by
  have hruns {rest after : Bytes} {members : List Member}
      (hopen : skipTrivia bytes = byte '<' :: byte '<' :: rest)
      (hreads : Reads .entries 1 rest members after) :
      dictionaryEntries (parserFuel bytes.length) 1 bytes.length rest =
        .ok (⟨members.map (Member.entry bytes.length), bytes.length - (after.length + 2)⟩, after) := by
    have hrest := (behind_of_skipTrivia hopen).2
    simp only [List.length_cons] at hrest
    exact hreads.runs (by simp only [Part.fuel, parserFuel]; omega) bytes.length
  unfold PdfDictionary.parse
  cases hc : consume (ascii "<<") (skipTrivia bytes) with
  | none =>
    simp only [unreadable, reduceCtorEq, false_iff]
    intro hx
    obtain ⟨rest, _, _, hopen, -⟩ := hx
    have hsome : consume (ascii "<<") (skipTrivia bytes) = some rest := consume_eq_some.mpr hopen
    rw [hc] at hsome
    exact absurd hsome (by simp)
  | some rest =>
    have hopen : skipTrivia bytes = byte '<' :: byte '<' :: rest := consume_eq_some.mp hc
    simp only [bind_eq_ok, requireEnd_eq_ok, pure_eq_ok]
    constructor
    · intro hx
      obtain ⟨⟨D', after⟩, hdict, -, hend, rfl⟩ := hx
      obtain ⟨members, hreads⟩ := (reads_of_parses _).2.2 hdict
      rw [hruns hopen hreads] at hdict
      obtain ⟨rfl, -⟩ := Prod.mk.inj (Except.ok.inj hdict)
      exact ⟨rest, members, after, hopen, hreads, hend, rfl⟩
    · intro hx
      obtain ⟨rest', members, after, hopen', hreads, hend, rfl⟩ := hx
      obtain rfl : rest = rest' := by simpa using hopen.symm.trans hopen'
      exact ⟨_, hruns hopen hreads, (), hend, rfl⟩

/-! ## §4. Arrays -/

/-- The members of an array, after its `[`; `arrayRemainder` with what it walks over kept. -/
def arrayMembers : Nat → Nat → Bytes → Except PdfError (List Member × Bytes)
  | 0, _, _ => unreadable
  | fuel + 1, depth, input =>
    match consume (ascii "]") (skipTrivia input) with
    | some rest => .ok ([], rest)
    | none => do
      let after ← value fuel depth (skipTrivia input)
      let (members, rest) ← arrayMembers fuel depth after
      return (⟨[], skipTrivia input, after⟩ :: members, rest)

/-- An array value with nothing but trivia around it: its members and what is left after it. -/
def arrayParts (bytes : Bytes) : Except PdfError (List Member × Bytes) :=
  match consume (ascii "[") (skipTrivia bytes) with
  | none => unreadable
  | some rest => do
    let (members, after) ← arrayMembers (parserFuel bytes.length) 1 rest
    requireEnd after
    return (members, after)

/-- **The elements of an array value.** -/
def arrayElements (bytes : Bytes) : Except PdfError (List Bytes) := do
  let (members, _) ← arrayParts bytes
  return members.map Member.text

/-- Where the array's own `]` stands. -/
def arrayClosing (bytes : Bytes) : Except PdfError Nat := do
  let (_, after) ← arrayParts bytes
  return bytes.length - (after.length + 1)

theorem arrayMembers_of_reads {depth : Nat} {input after : Bytes} {members : List Member}
    (h : Reads .items depth input members after) {fuel : Nat}
    (hfuel : 2 * (input.length - after.length) + 1 ≤ fuel) :
    arrayMembers fuel depth input = .ok (members, after) := by
  obtain ⟨f, rfl⟩ : ∃ f, fuel = f + 1 := ⟨fuel - 1, by omega⟩
  induction members generalizing input f with
  | nil =>
    cases h with
    | itemsEnd h =>
      have hopen : consume (ascii "]") (byte ']' :: after) = some after := consume_eq_some.mpr rfl
      simp only [arrayMembers, h, hopen]
  | cons m members ih =>
    cases h with
    | @item _ _ mid _ _ hitem hitems =>
      have hskip := (skipTrivia_suffix input).length_le
      have hfirst := hitem.behind.2
      have hothers := hitems.behind.2
      obtain ⟨f, rfl⟩ : ∃ g, f = g + 1 := ⟨f - 1, by omega⟩
      have hrun : value (f + 1) depth (skipTrivia input) = .ok mid :=
        hitem.runs (by simp only [Part.fuel]; omega)
      have hrest := ih hitems f (by omega)
      have hnone : consume (ascii "]") (skipTrivia input) = none :=
        consume_head_none hitem.not_unbracket _
      rw [arrayMembers, hnone, hrun]
      simp only [bind, Except.bind, hrest, pure, Except.pure]

theorem reads_of_arrayMembers {fuel depth : Nat} {input after : Bytes} {members : List Member}
    (h : arrayMembers fuel depth input = .ok (members, after)) :
    Reads .items depth input members after := by
  induction fuel generalizing input members with
  | zero => simp [arrayMembers, unreadable] at h
  | succ fuel ih =>
    simp only [arrayMembers] at h
    cases hc : consume (ascii "]") (skipTrivia input) with
    | some rest =>
      rw [hc] at h
      obtain ⟨rfl, rfl⟩ := Prod.mk.inj (Except.ok.inj h)
      exact .itemsEnd (consume_eq_some.mp hc)
    | none =>
      rw [hc] at h
      obtain ⟨mid, hvalue, h⟩ := bind_eq_ok.mp h
      obtain ⟨⟨ms, rest⟩, hrest, h⟩ := bind_eq_ok.mp h
      obtain ⟨rfl, rfl⟩ := Prod.mk.inj (pure_eq_ok.mp h)
      exact .item ((reads_of_parses _).1 hvalue) (ih hrest)

/-- **The accepted arrays.** -/
theorem arrayParts_iff {bytes after : Bytes} {members : List Member} :
    arrayParts bytes = .ok (members, after) ↔
      ∃ rest, skipTrivia bytes = byte '[' :: rest ∧ Reads .items 1 rest members after ∧
        skipTrivia after = [] := by
  unfold arrayParts
  cases hc : consume (ascii "[") (skipTrivia bytes) with
  | none =>
    simp only [unreadable, reduceCtorEq, false_iff]
    intro hx
    obtain ⟨rest, hopen, -⟩ := hx
    have hsome : consume (ascii "[") (skipTrivia bytes) = some rest := consume_eq_some.mpr hopen
    rw [hc] at hsome
    exact absurd hsome (by simp)
  | some rest =>
    have hopen : skipTrivia bytes = byte '[' :: rest := consume_eq_some.mp hc
    have hlen := (behind_of_skipTrivia hopen).2
    simp only [bind_eq_ok, requireEnd_eq_ok, pure_eq_ok]
    constructor
    · intro hx
      obtain ⟨⟨members', after'⟩, hmembers, -, hend, heq⟩ := hx
      obtain ⟨rfl, rfl⟩ := Prod.mk.inj heq
      exact ⟨rest, hopen, reads_of_arrayMembers hmembers, hend⟩
    · intro hx
      obtain ⟨rest', hopen', hreads, hend⟩ := hx
      obtain rfl : rest = rest' := by simpa using hopen.symm.trans hopen'
      exact ⟨_, arrayMembers_of_reads hreads (by simp only [parserFuel]; omega), (), hend, rfl⟩

/-! ## §5. The pairs of a dictionary -/

/-- What a member's span covers. -/
theorem Member.entry_value_of {bytes : Bytes} {m : Member} (hstart : m.start <:+ bytes)
    (hafter : m.after <:+ m.start) :
    (m.entry bytes.length).value.of bytes = m.text := by
  obtain ⟨a, rfl⟩ := hstart
  obtain ⟨x, hx⟩ := hafter
  have hstop : (a ++ m.start).length - m.after.length = (a ++ x).length := by
    rw [← hx]
    simp only [List.length_append]
    omega
  have hbegin : (a ++ m.start).length - m.start.length = a.length := by simp
  rw [Member.entry, Span.of, hstop, hbegin, ← hx, ← List.append_assoc, List.take_left, List.drop_left,
    Member.text, ← hx]
  simp

/-- The keys of a dictionary and the bytes of their values. -/
def PdfDictionary.pairs (dictionary : PdfDictionary) (bytes : Bytes) : List (Bytes × Bytes) :=
  dictionary.entries.map fun entry => (entry.name, entry.value.of bytes)

/-- The members of a dictionary, past both bytes that open it. -/
theorem members_inside {depth : Nat} {bytes rest after : Bytes} {members : List Member}
    (hopen : skipTrivia bytes = byte '<' :: byte '<' :: rest)
    (h : Reads .entries depth rest members after) {m : Member} (hm : m ∈ members) :
    m.start <:+ bytes ∧ m.after <:+ m.start := by
  have hsuf : byte '<' :: rest <:+ bytes := (behind_of_skipTrivia hopen).1
  exact ⟨(h.members hm).1.trans ((List.suffix_cons _ _).trans hsuf), (h.members hm).2.1⟩

theorem pairs_of_members {bytes rest after : Bytes} {members : List Member} {depth closing : Nat}
    (hopen : skipTrivia bytes = byte '<' :: byte '<' :: rest)
    (h : Reads .entries depth rest members after) :
    PdfDictionary.pairs ⟨members.map (Member.entry bytes.length), closing⟩ bytes =
      members.map fun m => (m.key, m.text) := by
  rw [PdfDictionary.pairs, List.map_map]
  refine List.map_congr_left fun m hm => ?_
  obtain ⟨hstart, hafter⟩ := members_inside hopen h hm
  simp only [Function.comp, Member.entry_value_of hstart hafter]
  rfl

/-- What the strict reader finds under a key, among the pairs of a dictionary. -/
def soleValue (key : Bytes) (pairs : List (Bytes × Bytes)) : Except PdfError (Option Bytes) :=
  match pairs.filter fun pair => pair.1 = key with
  | [] => .ok none
  | [pair] => .ok (some pair.2)
  | _ => unreadable

/-- The value under a key. -/
def PdfDictionary.valueOf (dictionary : PdfDictionary) (bytes key : Bytes) :
    Except PdfError (Option Bytes) := do
  let entry ← dictionary.entry key
  return entry.map fun entry => entry.value.of bytes

theorem soleValue_entries (dictionary : PdfDictionary) (f : PdfDictionaryEntry → Bytes)
    (key : Bytes) :
    soleValue key (dictionary.entries.map fun entry => (entry.name, f entry)) =
      (dictionary.entry key).map (Option.map f) := by
  have hfilter : (dictionary.entries.map fun entry => (entry.name, f entry)).filter
      (fun pair => pair.1 = key) =
      (dictionary.entries.filter fun entry => entry.name = key).map
        fun entry => (entry.name, f entry) := by
    rw [List.filter_map]
    rfl
  rw [PdfDictionary.entry, soleValue, hfilter]
  generalize dictionary.entries.filter _ = found
  match found with
  | [] => rfl
  | [_] => rfl
  | _ :: _ :: _ => rfl

theorem valueOf_eq_map (dictionary : PdfDictionary) (bytes key : Bytes) :
    dictionary.valueOf bytes key =
      (dictionary.entry key).map (Option.map fun entry => entry.value.of bytes) := by
  rw [PdfDictionary.valueOf]
  cases dictionary.entry key <;> rfl

theorem valueOf_eq_soleValue (dictionary : PdfDictionary) (bytes key : Bytes) :
    dictionary.valueOf bytes key = soleValue key (dictionary.pairs bytes) := by
  rw [valueOf_eq_map, PdfDictionary.pairs, soleValue_entries]

end Pdf

end RefineId
