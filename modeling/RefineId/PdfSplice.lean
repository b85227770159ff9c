/-
  RefineId.PdfSplice — the strict parser on edited bytes.
  ════════════════════════════════════════════════════════════════════════════

  The edits of `pades.rs` put bytes in front of a `]` or of a `>>` that a byte search has
  found.  Whether that bracket closes the array that was meant is another matter: it may
  stand in a string, in a comment, in a nested array.  Here it is shown what the strict
  parser reads on the edited bytes, wherever the bracket stands.

  An edit replaces the end `s` of the input by `t`; `shift` does that to an input that still
  holds `s` and leaves a shorter one alone.

  Main results:
    • `Reads.splice` : reading goes on as before, only the array whose own bracket was found
                       has one element more.
-/
import RefineId.PdfGrammar

namespace RefineId

namespace Pdf

open Lib

/-! ## §1. Ends of an input -/

/-- The end `s` of an input replaced by `t`; an input shorter than `s` stays. -/
def shift (s t input : Bytes) : Bytes :=
  if s.length ≤ input.length then input.take (input.length - s.length) ++ t else input

@[simp] theorem shift_append (s t u : Bytes) : shift s t (u ++ s) = u ++ t := by
  simp [shift]

@[simp] theorem shift_cons_append (s t u : Bytes) (b : UInt8) :
    shift s t (b :: (u ++ s)) = b :: (u ++ t) :=
  shift_append s t (b :: u)

theorem shift_self (s t : Bytes) : shift s t s = t := by
  simpa using shift_append s t []

theorem shift_short {s t input : Bytes} (h : input.length < s.length) : shift s t input = input :=
  if_neg (by omega)

/-- **An edit** that replaces `s` by `t`: `s` starts with a delimiter, `t` with a blank, and
    `t` does not go on with the end of a reference. -/
structure Splice (s t : Bytes) : Prop where
  head : ∃ b rest, s = b :: rest ∧ isRegular b = false ∧ isWhitespace b = false ∧ b ≠ byte '%'
  blank : ∃ b rest, t = b :: rest ∧ isWhitespace b = true
  noKeyword : consumeKeyword (ascii "R") (skipTrivia t) = none
  noTail : referenceTail t = none
  comment : skipTriviaFrom true t = skipTriviaFrom true s ∨
    skipTriviaFrom true t = skipTrivia t

theorem Splice.unregular {s t : Bytes} (hs : Splice s t) :
    ∃ b rest, t = b :: rest ∧ isRegular b = false := by
  obtain ⟨b, rest, rfl, hb⟩ := hs.blank
  exact ⟨b, rest, rfl, by simp [isRegular, hb]⟩

/-- The edit `append_to_array` makes at a `]`; the number is a `u32`. -/
structure Inserts (number : Nat) (s t : Bytes) : Prop where
  fits : number ≤ u32Max
  bracket : ∃ v, s = byte ']' :: v
  inserted : t = 32 :: (referenceText number ++ s)

/-! ## §2. Trivia -/

/-- Where the trivia of an edited input ends: before the edit, at it, or after it, when it
    stands in a comment. -/
inductive Trivia (s t : Bytes) : Bytes → Bytes → Prop
  | before (u : Bytes) (h : u ≠ []) : Trivia s t (u ++ s) (u ++ t)
  | edge : Trivia s t s (skipTrivia t)
  | comment : Trivia s t (skipTriviaFrom true s) (skipTriviaFrom true t)

theorem skipTriviaFrom_trivia {s t : Bytes} (hs : Splice s t) (comment : Bool) (u : Bytes) :
    Trivia s t (skipTriviaFrom comment (u ++ s)) (skipTriviaFrom comment (u ++ t)) := by
  induction u generalizing comment with
  | nil =>
    cases comment with
    | true => exact .comment
    | false =>
      obtain ⟨b, rest, rfl, -, hspace, hcomment⟩ := hs.head
      have hedge : skipTriviaFrom false (b :: rest) = b :: rest := skipTrivia_cons hspace hcomment rest
      simp only [List.nil_append, hedge]
      exact .edge
  | cons b u ih =>
    simp only [List.cons_append, skipTriviaFrom]
    split_ifs
    · exact ih _
    · exact ih _
    · exact ih _
    · exact .before (b :: u) (by simp)

theorem skipTrivia_trivia {s t : Bytes} (hs : Splice s t) (u : Bytes) :
    Trivia s t (skipTrivia (u ++ s)) (skipTrivia (u ++ t)) :=
  skipTriviaFrom_trivia hs false u

/-- A comment leaves less than it was given. -/
theorem comment_shorter {s : Bytes} (h : s ≠ []) : (skipTriviaFrom true s).length < s.length := by
  cases s with
  | nil => exact absurd rfl h
  | cons b rest =>
    simp only [skipTriviaFrom, if_true, List.length_cons]
    exact Nat.lt_succ_of_le (skipTriviaFrom_suffix _ _).length_le

/-! ## §3. Scanners -/

section scanners
variable {s t : Bytes}

/-- Octets that mean nothing in a string or a comment. -/
def isPlain (b : UInt8) : Bool := isAsciiDigit b || b = 32 || b = byte 'R'

theorem isPlain_cases {b : UInt8} (h : isPlain b = true) :
    b ≠ byte '\\' ∧ b ≠ byte '(' ∧ b ≠ byte ')' ∧ b ≠ byte '>' ∧ b ≠ 13 ∧ b ≠ 10 := by
  refine ⟨?_, ?_, ?_, ?_, ?_, ?_⟩ <;> (intro hb; rw [hb] at h; exact absurd h (by decide))

theorem referenceText_plain {n : Nat} {b : UInt8} (h : b ∈ 32 :: referenceText n) :
    isPlain b = true := by
  rcases List.mem_cons.mp h with rfl | h
  · decide
  rcases List.mem_append.mp h with h | h
  · simp [isPlain, decimal_digits h]
  · have hall : (ascii " 0 R").all isPlain = true := by decide
    exact List.all_eq_true.mp hall b h

theorem literal_plain {b : UInt8} (h : isPlain b = true) (depth : Nat) (rest : Bytes) :
    literalStringRemainder depth (b :: rest) = literalStringRemainder depth rest := by
  obtain ⟨h1, h2, h3, -⟩ := isPlain_cases h
  rw [literalStringRemainder.eq_def]
  simp only [h1, h2, h3, if_false]

theorem literal_plains {w : Bytes} (h : ∀ b ∈ w, isPlain b = true) (depth : Nat) (rest : Bytes) :
    literalStringRemainder depth (w ++ rest) = literalStringRemainder depth rest := by
  induction w with
  | nil => rfl
  | cons b w ih =>
    rw [List.cons_append, literal_plain (h b List.mem_cons_self),
      ih fun c hc => h c (List.mem_cons_of_mem b hc)]

/-- In a string the inserted bytes are skipped. -/
theorem Inserts.literal {n : Nat} (hi : Inserts n s t) (depth : Nat) :
    literalStringRemainder depth t = literalStringRemainder depth s := by
  rw [hi.inserted, ← List.cons_append]
  exact literal_plains (fun b hb => referenceText_plain hb) depth s

theorem literal_bracket (depth : Nat) (v : Bytes) :
    literalStringRemainder depth (byte ']' :: v) = literalStringRemainder depth v := by
  rw [literalStringRemainder.eq_def]
  rfl

theorem literal_escape (depth : Nat) (c d : UInt8) (rest : Bytes) :
    literalStringRemainder depth (byte '\\' :: c :: d :: rest) =
      if c = 13 && d = 10 then literalStringRemainder depth rest
      else literalStringRemainder depth (d :: rest) := by
  rw [literalStringRemainder.eq_def]
  rfl

/-- What stands behind an edit that the scanner has passed. -/
theorem inserts_of_short {n : Nat} {r : Bytes} (hr : s <:+ r ∨ Inserts n s t)
    (hshort : r.length < s.length) : Inserts n s t := by
  rcases hr with h | h
  · exact absurd h.length_le (by omega)
  · exact h

/-- An escape whose byte is the first of `s`. -/
theorem literal_splice_escape {n depth : Nat} {r : Bytes}
    (h : literalStringRemainder depth (byte '\\' :: s) = .ok r) (hr : s <:+ r ∨ Inserts n s t) :
    literalStringRemainder depth (byte '\\' :: t) = .ok (shift s t r) := by
  match s with
  | [] => simp [literalStringRemainder, unreadable] at h
  | [_] => simp [literalStringRemainder, unreadable] at h
  | c :: d :: rest =>
    rw [literal_escape] at h
    have hshort : r.length < (c :: d :: rest).length := by
      split_ifs at h
      · have := (literalStringRemainder_suffix h).2
        simp only [List.length_cons]
        omega
      · have := (literalStringRemainder_suffix h).2
        simp only [List.length_cons] at this ⊢
        omega
    have hi := inserts_of_short hr hshort
    obtain ⟨v, hv⟩ := hi.bracket
    obtain ⟨rfl, rfl⟩ := List.cons.inj hv
    rw [show (decide (byte ']' = 13)) = false by decide, Bool.false_and] at h
    have hplain := literal_plains (fun b hb => referenceText_plain (List.mem_cons_of_mem 32 hb)) depth
      (byte ']' :: d :: rest) (w := referenceText n)
    rw [literal_bracket] at hplain
    rw [← hplain] at h
    rw [shift_short hshort, hi.inserted]
    obtain ⟨e, w, hw⟩ : ∃ e w, referenceText n ++ byte ']' :: d :: rest = e :: w :=
      List.exists_cons_of_ne_nil (by simp)
    rw [hw] at h ⊢
    rw [literal_escape, if_neg (by simp)]
    exact h

/-- An escape just before `s`. -/
theorem literal_splice_escaped {n depth : Nat} {c : UInt8} {r : Bytes}
    (h : literalStringRemainder depth (byte '\\' :: c :: s) = .ok r)
    (hr : s <:+ r ∨ Inserts n s t) :
    literalStringRemainder depth (byte '\\' :: c :: t) = .ok (shift s t r) := by
  match s with
  | [] => simp [literalStringRemainder, unreadable] at h
  | d :: rest =>
    rw [literal_escape] at h
    have hshort : r.length < (d :: rest).length := by
      split_ifs at h
      · have := (literalStringRemainder_suffix h).2
        simp only [List.length_cons]
        omega
      · exact (literalStringRemainder_suffix h).2
    have hi := inserts_of_short hr hshort
    obtain ⟨v, hv⟩ := hi.bracket
    obtain ⟨rfl, rfl⟩ := List.cons.inj hv
    have hcr : (decide (c = 13) && decide (byte ']' = 10)) = false := by
      rw [show (decide (byte ']' = 10)) = false by decide, Bool.and_false]
    rw [hcr] at h
    rw [shift_short hshort, ← h]
    have hlit := hi.literal depth
    rw [hi.inserted] at hlit ⊢
    rw [literal_escape, if_neg (by simp)]
    exact hlit

/-- **Strings.** -/
theorem literal_splice {n depth : Nat} {u r : Bytes}
    (h : literalStringRemainder depth (u ++ s) = .ok r) (hr : s <:+ r ∨ Inserts n s t) :
    literalStringRemainder depth (u ++ t) = .ok (shift s t r) := by
  induction hn : u.length using Nat.strong_induction_on generalizing u depth with
  | _ len ih =>
    subst hn
    match u with
    | [] =>
      have hshort : r.length < s.length := (literalStringRemainder_suffix h).2
      rw [shift_short hshort]
      exact ((inserts_of_short hr hshort).literal depth).trans h
    | b :: u =>
      by_cases hslash : b = byte '\\'
      · subst hslash
        match u with
        | [] => exact literal_splice_escape h hr
        | [c] => exact literal_splice_escaped h hr
        | c :: d :: u =>
          simp only [List.cons_append, literal_escape] at h ⊢
          split_ifs at h ⊢ with hcr
          · exact ih u.length (by simp only [List.length_cons]; omega) h rfl
          · exact ih (d :: u).length (by simp only [List.length_cons]; omega) h rfl
      · have hlen : u.length < (b :: u).length := by simp
        rw [List.cons_append, literalStringRemainder.eq_def] at h ⊢
        simp only [hslash, if_false] at h ⊢
        split_ifs at h ⊢
        · obtain ⟨_, hdepth, h⟩ := bind_eq_ok.mp h
          exact bind_eq_ok.mpr ⟨_, hdepth, ih u.length hlen h rfl⟩
        · obtain rfl := Except.ok.inj h
          rw [shift_append]
        · exact ih u.length hlen h rfl
        · exact ih u.length hlen h rfl

theorem hex_plains {w : Bytes} (h : ∀ b ∈ w, isPlain b = true) (rest : Bytes) :
    hexStringRemainder (w ++ rest) = hexStringRemainder rest := by
  induction w with
  | nil => rfl
  | cons b w ih =>
    have hb := (isPlain_cases (h b List.mem_cons_self)).2.2.2.1
    rw [List.cons_append, hexStringRemainder, if_neg hb,
      ih fun c hc => h c (List.mem_cons_of_mem b hc)]

/-- **Hexadecimal strings.** -/
theorem hex_splice {n : Nat} {u r : Bytes} (h : hexStringRemainder (u ++ s) = .ok r)
    (hr : s <:+ r ∨ Inserts n s t) : hexStringRemainder (u ++ t) = .ok (shift s t r) := by
  induction u with
  | nil =>
    have hshort : r.length < s.length := (hexStringRemainder_suffix h).2
    have hi := inserts_of_short hr hshort
    rw [shift_short hshort, hi.inserted, List.nil_append, ← List.cons_append,
      hex_plains fun b hb => referenceText_plain hb]
    exact h
  | cons b u ih =>
    simp only [List.cons_append, hexStringRemainder] at h ⊢
    split_ifs at h ⊢ with hb
    · obtain rfl := Except.ok.inj h
      rw [shift_append]
    · exact ih h

/-- A hexadecimal digit is no delimiter. -/
theorem hexDigit_eq_none {b : UInt8} (h : isRegular b = false) : hexDigit b = none := by
  have hall : ∀ i : Fin 256, isRegular (UInt8.ofFin i) = false → hexDigit (UInt8.ofFin i) = none := by
    decide +kernel
  exact hall b.toFin h

/-- The three ways a name goes on at a `#`. -/
theorem nameRemainder_escape (h l : UInt8) (rest : Bytes) :
    nameRemainder (byte '#' :: h :: l :: rest) =
      match hexDigit h, hexDigit l with
      | some high, some low => do
        let (decoded, rest') ← nameRemainder rest
        return (UInt8.ofNat (high * 16 + low) :: decoded, rest')
      | _, _ => unreadable := by
  rw [nameRemainder.eq_def]
  rfl

/-- **Names** end before the edit. -/
theorem name_splice (hs : Splice s t) {u decoded r : Bytes}
    (h : nameRemainder (u ++ s) = .ok (decoded, r)) :
    s <:+ r ∧ nameRemainder (u ++ t) = .ok (decoded, shift s t r) := by
  obtain ⟨b₀, s', hhead, hreg, -, -⟩ := hs.head
  obtain ⟨b₁, t', hblank, hreg'⟩ := hs.unregular
  induction hn : u.length using Nat.strong_induction_on generalizing u decoded with
  | _ len ih =>
    subst hn
    match u with
    | [] =>
      rw [List.nil_append, hhead, nameRemainder_stop hreg] at h
      obtain ⟨rfl, rfl⟩ := Prod.mk.inj (Except.ok.inj h)
      rw [← hhead, shift_self, List.nil_append, hblank, nameRemainder_stop hreg']
      exact ⟨List.suffix_rfl, rfl⟩
    | b :: u =>
      by_cases hb : isRegular b = true
      · by_cases hesc : b = byte '#'
        · subst hesc
          -- the two digits stand before the edit, for `s` starts with no digit
          have hnone := hexDigit_eq_none hreg
          match u with
          | [] =>
            rw [hhead] at h
            cases s' with
            | nil => simp [nameRemainder, hb, unreadable] at h
            | cons c s' => simp [nameRemainder_escape, hnone, unreadable] at h
          | [c] =>
            rw [hhead] at h
            simp only [List.cons_append, List.nil_append, nameRemainder_escape, hnone] at h
            cases hexDigit c <;> simp [unreadable] at h
          | c :: d :: u =>
            simp only [List.cons_append, nameRemainder_escape] at h ⊢
            cases hc : hexDigit c with
            | none => simp [hc, unreadable] at h
            | some high =>
              cases hd : hexDigit d with
              | none => simp [hc, hd, unreadable] at h
              | some low =>
                simp only [hc, hd] at h ⊢
                obtain ⟨⟨name', r'⟩, hname, heq⟩ := bind_eq_ok.mp h
                obtain ⟨rfl, rfl⟩ := Prod.mk.inj (pure_eq_ok.mp heq)
                obtain ⟨hsuf, hrun⟩ := ih u.length (by simp only [List.length_cons]; omega) hname rfl
                refine ⟨hsuf, ?_⟩
                rw [hrun]
                rfl
        · rw [List.cons_append, nameRemainder_go hb hesc] at h ⊢
          obtain ⟨⟨name', r'⟩, hname, heq⟩ := bind_eq_ok.mp h
          obtain ⟨rfl, rfl⟩ := Prod.mk.inj (pure_eq_ok.mp heq)
          obtain ⟨hsuf, hrun⟩ := ih u.length (by simp) hname rfl
          refine ⟨hsuf, ?_⟩
          rw [hrun]
          rfl
      · rw [Bool.not_eq_true] at hb
        rw [List.cons_append, nameRemainder_stop hb] at h ⊢
        obtain ⟨rfl, rfl⟩ := Prod.mk.inj (Except.ok.inj h)
        exact ⟨List.suffix_append (b :: u) s, by rw [shift_cons_append]⟩

/-- **Runs of bytes** of a class that holds neither the first byte of `s` nor that of `t`. -/
theorem takeWhile_splice {class_ : UInt8 → Bool} {u : Bytes} {b b' : UInt8} {s' t' : Bytes}
    (hs : s = b :: s') (ht : t = b' :: t') (hb : class_ b = false) (hb' : class_ b' = false) :
    ∃ u', (u ++ s).dropWhile class_ = u' ++ s ∧ (u ++ t).dropWhile class_ = u' ++ t ∧
      (u ++ s).takeWhile class_ = (u ++ t).takeWhile class_ := by
  induction u with
  | nil =>
    refine ⟨[], ?_, ?_, ?_⟩
    · simp [hs, hb]
    · simp [ht, hb']
    · simp [hs, ht, hb, hb']
  | cons c u ih =>
    by_cases hc : class_ c = true
    · obtain ⟨u', h1, h2, h3⟩ := ih
      refine ⟨u', ?_, ?_, ?_⟩
      · rw [List.cons_append, List.dropWhile_cons_of_pos hc, h1]
      · rw [List.cons_append, List.dropWhile_cons_of_pos hc, h2]
      · rw [List.cons_append, List.cons_append, List.takeWhile_cons_of_pos hc,
          List.takeWhile_cons_of_pos hc, h3]
    · exact ⟨c :: u, by simp [hc], by simp [hc], by simp [hc]⟩

/-- Two results around an edit: the same value, and what is left of the one edited. -/
inductive Around {α : Type} (s t : Bytes) : Option (α × Bytes) → Option (α × Bytes) → Prop
  | none : Around s t none none
  | before (a : α) (u : Bytes) : Around s t (some (a, u ++ s)) (some (a, u ++ t))

/-- A number that starts before the edit ends before it. -/
theorem digitsAt_splice (hs : Splice s t) (u : Bytes) :
    Around s t (digitsAt (u ++ s)) (digitsAt (u ++ t)) := by
  obtain ⟨b, s', hhead, hreg, -, -⟩ := hs.head
  obtain ⟨b', t', hblank, hreg'⟩ := hs.unregular
  obtain ⟨u', h1, h2, h3⟩ := takeWhile_splice (u := u) hhead hblank (isAsciiDigit_regular hreg)
    (isAsciiDigit_regular hreg')
  have hany : (u' ++ s).head?.any isRegular = (u' ++ t).head?.any isRegular := by
    cases u' with
    | nil => simp [hhead, hblank, hreg, hreg']
    | cons c u' => rfl
  simp only [digitsAt, h1, h2, h3, hany]
  split_ifs
  · exact .none
  · exact .before _ u'

/-- No number starts at `s`. -/
theorem digitsAt_self (hs : Splice s t) : digitsAt s = none := by
  obtain ⟨b, s', hhead, hreg, -, -⟩ := hs.head
  simp [digitsAt, hhead, isAsciiDigit_regular hreg]

theorem bounded_splice {parse : Bytes → Option Nat} {x y : Option (Bytes × Bytes)}
    (h : Around s t x y) :
    Around s t (x.bind fun p => (parse p.1).map fun n => (n, p.2))
      (y.bind fun p => (parse p.1).map fun n => (n, p.2)) := by
  cases h with
  | none => exact .none
  | before a u =>
    simp only [Option.bind_some]
    cases parse a with
    | none => exact .none
    | some n => exact .before n u

theorem unsignedU32_eq (input : Bytes) : unsignedU32 input =
    (digitsAt (skipTrivia input)).bind fun p => (parseU32 p.1).map fun n => (n, p.2) := by
  simp only [unsignedU32, unsignedDigits_eq, Option.bind_eq_bind, Option.pure_def]
  cases digitsAt (skipTrivia input) with
  | none => rfl
  | some p =>
    simp only [Option.bind_some]
    cases parseU32 p.1 <;> rfl

/-- What the end of a reference leaves around an edit.  `same` and `lost` are the edits in a
    comment: one that the comment hides, and one that ends it. -/
inductive Tail (s t : Bytes) : Option Bytes → Option Bytes → Prop
  | none : Tail s t none none
  | before (u : Bytes) : Tail s t (some (u ++ s)) (some (u ++ t))
  | same {o : Option Bytes} (h : ∀ r, o = some r → r.length < s.length) : Tail s t o o
  | lost {o : Option Bytes} (h : ∀ r, o = some r → r.length < s.length)
      (hends : skipTriviaFrom true t ≠ skipTriviaFrom true s) : Tail s t o .none

theorem keyword_short {r r' : Bytes} (h : consumeKeyword (ascii "R") r = some r') :
    r'.length ≤ r.length := by
  obtain ⟨rfl, -⟩ := consumeKeyword_eq_some.mp h
  simp

/-- The keyword `R` around an edit. -/
theorem keyword_splice (hs : Splice s t) (u : Bytes) :
    Tail s t (consumeKeyword (ascii "R") (skipTrivia (u ++ s)))
      (consumeKeyword (ascii "R") (skipTrivia (u ++ t))) := by
  obtain ⟨b, s', hhead, hreg, -, -⟩ := hs.head
  obtain ⟨b', t', hblank, hreg'⟩ := hs.unregular
  have hkey (c : UInt8) (x : Bytes) : consumeKeyword (ascii "R") (c :: x) =
      if c = byte 'R' ∧ x.head?.any isRegular = false then some x else none := by
    split_ifs with h
    · exact consumeKeyword_eq_some.mpr ⟨by rw [h.1]; rfl, h.2⟩
    · rw [Option.eq_none_iff_forall_ne_some]
      intro r hr
      obtain ⟨heq, hany⟩ := consumeKeyword_eq_some.mp hr
      obtain ⟨rfl, rfl⟩ := List.cons.inj heq
      exact h ⟨rfl, hany⟩
  have hne : b ≠ byte 'R' := by
    intro h
    rw [h] at hreg
    exact absurd hreg (by decide)
  have htrivia := skipTrivia_trivia hs u
  generalize skipTrivia (u ++ s) = x, skipTrivia (u ++ t) = y at htrivia ⊢
  cases htrivia with
  | before u' hu' =>
    obtain ⟨c, u'', rfl⟩ := List.exists_cons_of_ne_nil hu'
    have hany : (u'' ++ s).head?.any isRegular = (u'' ++ t).head?.any isRegular := by
      cases u'' with
      | nil => simp [hhead, hblank, hreg, hreg']
      | cons d u'' => rfl
    simp only [List.cons_append, hkey, hany]
    split_ifs
    · exact .before u''
    · exact .none
  | edge =>
    have hself : consumeKeyword (ascii "R") s = none := by
      rw [hhead, hkey, if_neg fun h => hne h.1]
    rw [hself, hs.noKeyword]
    exact .none
  | comment =>
    have hshort : ∀ r, consumeKeyword (ascii "R") (skipTriviaFrom true s) = some r →
        r.length < s.length := by
      intro r hr
      exact (keyword_short hr).trans_lt (comment_shorter (by simp [hhead]))
    by_cases heq : skipTriviaFrom true t = skipTriviaFrom true s
    · rw [heq]
      exact .same hshort
    · rw [hs.comment.resolve_left heq, hs.noKeyword]
      exact .lost hshort heq

theorem tailAt_short {rest r : Bytes} (h : tailAt rest = some r) : r.length ≤ rest.length := by
  obtain ⟨⟨n, after⟩, hdigits, hkey⟩ := Option.bind_eq_some_iff.mp h
  obtain ⟨⟨digits, after'⟩, hat, hmap⟩ := Option.bind_eq_some_iff.mp hdigits
  obtain ⟨_, -, hpair⟩ := Option.map_eq_some_iff.mp hmap
  obtain ⟨-, rfl⟩ := Prod.mk.inj hpair
  unfold digitsAt at hat
  split_ifs at hat
  obtain ⟨-, rfl⟩ := Prod.mk.inj (Option.some.inj hat)
  calc r.length ≤ (skipTrivia (rest.dropWhile isAsciiDigit)).length := keyword_short hkey
    _ ≤ (rest.dropWhile isAsciiDigit).length := (skipTrivia_suffix _).length_le
    _ ≤ rest.length := (List.dropWhile_suffix _).length_le

/-- **The end of a reference** around an edit. -/
theorem referenceTail_splice (hs : Splice s t) (u : Bytes) :
    Tail s t (referenceTail (u ++ s)) (referenceTail (u ++ t)) := by
  obtain ⟨b, s', hhead, -⟩ := hs.head
  have htail : tailAt (skipTrivia t) = none := referenceTail_eq t ▸ hs.noTail
  have htrivia := skipTrivia_trivia hs u
  rw [referenceTail_eq, referenceTail_eq]
  generalize skipTrivia (u ++ s) = x, skipTrivia (u ++ t) = y at htrivia ⊢
  cases htrivia with
  | before u' _ =>
    have haround := @bounded_splice s t parseU16 _ _ (digitsAt_splice hs u')
    unfold tailAt
    generalize (digitsAt (u' ++ s)).bind _ = x, (digitsAt (u' ++ t)).bind _ = y at haround ⊢
    cases haround with
    | none => exact .none
    | before n u'' => exact keyword_splice hs u''
  | edge =>
    rw [htail, tailAt, digitsAt_self hs]
    exact .none
  | comment =>
    have hshort : ∀ r, tailAt (skipTriviaFrom true s) = some r → r.length < s.length := by
      intro r hr
      exact (tailAt_short hr).trans_lt (comment_shorter (by simp [hhead]))
    by_cases heq : skipTriviaFrom true t = skipTriviaFrom true s
    · rw [heq]
      exact .same hshort
    · rw [hs.comment.resolve_left heq, htail]
      exact .lost hshort heq

/-- A comment hides the inserted bytes. -/
theorem Inserts.comment {n : Nat} (hi : Inserts n s t) :
    skipTriviaFrom true t = skipTriviaFrom true s := by
  have hskip {w : Bytes} (h : ∀ b ∈ w, isPlain b = true) (rest : Bytes) :
      skipTriviaFrom true (w ++ rest) = skipTriviaFrom true rest := by
    induction w with
    | nil => rfl
    | cons b w ih =>
      obtain ⟨-, -, -, -, hcr, hlf⟩ := isPlain_cases (h b List.mem_cons_self)
      rw [List.cons_append, skipTriviaFrom]
      simp only [hcr, hlf, decide_false, Bool.or_self, Bool.not_false, if_true]
      exact ih fun c hc => h c (List.mem_cons_of_mem b hc)
  rw [hi.inserted, ← List.cons_append]
  exact hskip (fun b hb => referenceText_plain hb) s

/-- **Numbers and references.** -/
theorem consumeReferenceTail_splice (hs : Splice s t) {n : Nat} {first u : Bytes}
    (hr : s <:+ consumeReferenceTail first (u ++ s) ∨ Inserts n s t) :
    consumeReferenceTail first (u ++ t) = shift s t (consumeReferenceTail first (u ++ s)) := by
  have htail := referenceTail_splice hs u
  simp only [consumeReferenceTail_eq] at hr ⊢
  split_ifs at hr ⊢
  · generalize referenceTail (u ++ s) = x, referenceTail (u ++ t) = y at htail hr ⊢
    cases htail with
    | none => simp
    | before u' => simp
    | same h =>
      cases x with
      | none => simp
      | some r => simp [shift_short (h r rfl)]
    | lost h hends =>
      cases x with
      | none => simp
      | some r =>
        have hi := inserts_of_short hr (h r rfl)
        exact absurd hi.comment hends
  · simp

end scanners

/-! ## §4. Reading edited bytes -/

/-- A member of the edited input. -/
def Member.shift (s t : Bytes) (m : Member) : Member :=
  ⟨m.key, Pdf.shift s t m.start, Pdf.shift s t m.after⟩

/-- The element more of an array whose own bracket is the first byte of `s`. -/
def extra (number : Nat) (s : Bytes) (part : Part) (after : Bytes) : List Member :=
  if part = .items ∧ after.length + 1 = s.length then [⟨[], referenceText number ++ s, s⟩] else []

section splice
variable {s t : Bytes} {n : Nat}

theorem extra_long {part : Part} {after : Bytes} (h : s.length ≤ after.length) :
    extra n s part after = [] := by
  rw [extra, if_neg]
  intro hx
  omega

theorem extra_short {part : Part} {after : Bytes} (h : after.length + 1 < s.length) :
    extra n s part after = [] := by
  rw [extra, if_neg]
  intro hx
  omega

theorem extra_part {part : Part} {after : Bytes} (h : part ≠ .items) : extra n s part after = [] := by
  rw [extra, if_neg]
  intro hx
  exact h hx.1

/-- **Behind the edit** nothing changes. -/
theorem Reads.unshifted {part : Part} {depth : Nat} {input after : Bytes} {members : List Member}
    (h : Reads part depth input members after) (hshort : input.length < s.length) :
    Reads part depth (Pdf.shift s t input) (members.map (Member.shift s t) ++ extra n s part after)
      (Pdf.shift s t after) := by
  have hafter := h.behind.2
  have hmembers : members.map (Member.shift s t) = members := by
    refine (List.map_congr_left fun m hm => ?_).trans (List.map_id members)
    obtain ⟨hstart, hbehind⟩ := h.members hm
    have h1 := hstart.length_le
    have h2 := hbehind.2
    rw [Member.shift, shift_short (by omega), shift_short (by omega)]
    rfl
  rw [shift_short hshort, shift_short (by omega), hmembers, extra_short (by omega), List.append_nil]
  exact h

theorem shift_cons {b : UInt8} {rest : Bytes} (h : s <:+ rest ∨ rest.length + 1 < s.length) :
    Pdf.shift s t (b :: rest) = b :: Pdf.shift s t rest := by
  rcases h with ⟨u, rfl⟩ | h
  · simp
  · rw [shift_short (by simpa using h), shift_short (by omega)]

/-- Trivia of an edited input that does not end at the edit. -/
theorem skipTrivia_shift (hs : Splice s t) {input : Bytes} (hin : s <:+ input)
    (hedge : skipTrivia input ≠ s) (hr : s <:+ skipTrivia input ∨ Inserts n s t) :
    skipTrivia (Pdf.shift s t input) = Pdf.shift s t (skipTrivia input) ∧
      (s <:+ skipTrivia input ∨ (skipTrivia input).length < s.length) := by
  obtain ⟨u, rfl⟩ := hin
  obtain ⟨b, s', hhead, -⟩ := hs.head
  rw [shift_append]
  have htrivia := skipTrivia_trivia hs u
  generalize skipTrivia (u ++ s) = x, skipTrivia (u ++ t) = y at htrivia hedge hr ⊢
  cases htrivia with
  | before u' _ => exact ⟨(shift_append s t u').symm, .inl (List.suffix_append u' s)⟩
  | edge => exact absurd rfl hedge
  | comment =>
    have hshort := comment_shorter (s := s) (by simp [hhead])
    have hi := inserts_of_short hr hshort
    rw [hi.comment, shift_short hshort]
    exact ⟨rfl, .inr hshort⟩

/-- A first byte that is not that of the edit. -/
theorem cons_splice {rest after : Bytes} {b : UInt8} (hb : b ≠ byte ']') (hafter : after <:+ rest)
    (hr : s <:+ after ∨ Inserts n s t)
    (hcase : s <:+ b :: rest ∨ (b :: rest).length < s.length) :
    s ≠ b :: rest ∧ Pdf.shift s t (b :: rest) = b :: Pdf.shift s t rest ∧
      (s <:+ rest ∨ rest.length < s.length) := by
  have hedge : s ≠ b :: rest := by
    intro heq
    rcases hr with hsuf | hi
    · have h1 := hsuf.length_le
      have h2 := hafter.length_le
      have h3 : s.length = rest.length + 1 := by rw [heq, List.length_cons]
      omega
    · obtain ⟨v, hv⟩ := hi.bracket
      rw [hv] at heq
      exact hb (List.cons.inj heq).1.symm
  rcases hcase with hcase | hcase
  · have hrest : s <:+ rest := (List.suffix_cons_iff.mp hcase).resolve_left hedge
    exact ⟨hedge, shift_cons (.inl hrest), .inl hrest⟩
  · simp only [List.length_cons] at hcase
    exact ⟨hedge, shift_cons (.inr hcase), .inr (by omega)⟩

/-- What a part of the input holds of `s`. -/
theorem suffix_or_short {a input : Bytes} (h : a <:+ input) (hin : s <:+ input) :
    s <:+ a ∨ a.length < s.length := by
  by_cases hlen : s.length ≤ a.length
  · exact .inl (List.suffix_of_suffix_length_le hin h hlen)
  · exact .inr (by omega)

/-- **The opening** of a value of an edited input. -/
theorem opening_splice (hs : Splice s t) {input rest after : Bytes} {b : UInt8}
    (hin : s <:+ input) (h : skipTrivia input = b :: rest) (hb : b ≠ byte ']')
    (hafter : after <:+ rest) (hr : s <:+ after ∨ Inserts n s t) :
    skipTrivia (Pdf.shift s t input) = b :: Pdf.shift s t rest ∧
      (s <:+ rest ∨ rest.length < s.length) := by
  have hsuf : after <:+ skipTrivia input := h ▸ hafter.trans (List.suffix_cons b rest)
  obtain ⟨hedge, hshift, hrest⟩ :=
    cons_splice hb hafter hr (h ▸ suffix_or_short (skipTrivia_suffix input) hin)
  obtain ⟨heq, -⟩ := skipTrivia_shift hs hin (h ▸ hedge.symm) (hr.imp_left fun hx => hx.trans hsuf)
  exact ⟨by rw [heq, h, hshift], hrest⟩

/-- **The start** of a value of an edited input. -/
theorem value_splice (hs : Splice s t) {depth : Nat} {input after rest : Bytes}
    (h : Reads .value depth (skipTrivia input) [] after) (hafter : rest <:+ after)
    (hin : s <:+ input ∨ input.length < s.length) (hr : s <:+ rest ∨ Inserts n s t) :
    skipTrivia (Pdf.shift s t input) = Pdf.shift s t (skipTrivia input) ∧
      (s <:+ skipTrivia input ∨ (skipTrivia input).length < s.length) := by
  have hlen := (skipTrivia_suffix input).length_le
  rcases hin with hin | hin
  · have hsuf : rest <:+ skipTrivia input := hafter.trans h.behind.1
    refine skipTrivia_shift hs hin ?_ (hr.imp_left fun hx => hx.trans hsuf)
    intro hedge
    rcases hr with hx | hi
    · have h1 := hx.length_le
      have h2 := hafter.length_le
      have h3 := h.behind.2
      rw [hedge] at h3
      omega
    · obtain ⟨v, hv⟩ := hi.bracket
      exact h.not_unbracket v (hedge.trans hv)
  · rw [shift_short hin, shift_short (by omega)]
    exact ⟨rfl, .inr (by omega)⟩

/-- The end of the inserted reference. -/
theorem referenceTail_bracket (v : Bytes) :
    referenceTail (ascii " 0 R" ++ byte ']' :: v) = some (byte ']' :: v) := by
  have hskip : skipTrivia (ascii " 0 R" ++ byte ']' :: v) = ascii "0" ++ ascii " R" ++ byte ']' :: v := by
    rfl
  have hkey : skipTrivia (ascii " R" ++ byte ']' :: v) = ascii "R" ++ byte ']' :: v := rfl
  have hdigits : digitsAt (ascii "0" ++ ascii " R" ++ byte ']' :: v) =
      some (ascii "0", ascii " R" ++ byte ']' :: v) := rfl
  have hzero : parseU16 (ascii "0") = some 0 := by decide
  rw [referenceTail_eq, hskip, tailAt, hdigits]
  simp only [Option.bind_some, hzero, Option.map_some, hkey]
  exact consumeKeyword_eq_some.mpr ⟨rfl, rfl⟩

/-- A reference in front of a `]`. -/
theorem reads_referenceText {n : Nat} (hn : n ≤ u32Max) (depth : Nat) (v : Bytes) :
    Reads .value depth (referenceText n ++ byte ']' :: v) [] (byte ']' :: v) := by
  have hsplit := @run_split isRegular (decimal n)
    (ascii " 0 R" ++ byte ']' :: v) (fun b hb => digit_regular (decimal_digits hb)) rfl
  obtain ⟨b, w, hw⟩ := List.exists_cons_of_ne_nil (decimal_ne_nil n)
  have hb : isAsciiDigit b = true := decimal_digits (hw ▸ List.mem_cons_self)
  have hskip : skipTrivia (decimal n ++ (ascii " 0 R" ++ byte ']' :: v)) =
      decimal n ++ (ascii " 0 R" ++ byte ']' :: v) := by
    rw [hw]
    exact skipTrivia_regular (digit_regular hb) _
  have hatom : Pdf.atom (skipTrivia (decimal n ++ (ascii " 0 R" ++ byte ']' :: v))) =
      .ok (decimal n, ascii " 0 R" ++ byte ']' :: v) := by
    rw [hskip]
    conv_lhs => rw [hw, List.cons_append, atom_cons (digit_regular hb)]
    rw [← List.cons_append, ← hw, hsplit.1, hsplit.2]
  have hnumber : parseU32 (decimal n) = some n := by
    have hfits : n ≤ usizeMax := hn.trans (by decide)
    rw [parseU32, parseUsize_decimal hfits, Option.bind_some, narrow, if_pos hn]
  have hread := @Reads.atom depth _ _ _ hatom
  rw [consumeReferenceTail_eq, hnumber, Option.isSome_some, if_pos rfl, referenceTail_bracket] at hread
  rw [referenceText, List.append_assoc]
  exact hread

/-- The element that stands for the inserted reference. -/
theorem Inserts.reads {n : Nat} (hi : Inserts n s t) (depth : Nat) :
    Reads .value depth (referenceText n ++ s) [] s := by
  obtain ⟨v, rfl⟩ := hi.bracket
  exact reads_referenceText hi.fits depth v

/-- Trivia before the inserted reference. -/
theorem Inserts.skipTrivia_eq {n : Nat} (hi : Inserts n s t) :
    skipTrivia t = referenceText n ++ s := by
  obtain ⟨b, w, hw⟩ := List.exists_cons_of_ne_nil (decimal_ne_nil n)
  have hb : isAsciiDigit b = true := decimal_digits (hw ▸ List.mem_cons_self)
  have hspace : skipTrivia (32 :: (referenceText n ++ s)) = skipTrivia (referenceText n ++ s) := rfl
  rw [hi.inserted, hspace, referenceText, hw]
  exact skipTrivia_regular (digit_regular hb) _

/-- **The end** of an array of an edited input. -/
theorem itemsEnd_splice (hs : Splice s t) {depth : Nat} {input after : Bytes} (hin : s <:+ input)
    (h : skipTrivia input = byte ']' :: after) (hr : s <:+ after ∨ Inserts n s t) :
    Reads .items depth (Pdf.shift s t input) (extra n s .items after) (Pdf.shift s t after) := by
  obtain ⟨u, rfl⟩ := hin
  obtain ⟨b, s', hhead, -⟩ := hs.head
  rw [shift_append]
  have htrivia := skipTrivia_trivia hs u
  rw [h] at htrivia
  generalize hx : byte ']' :: after = x, hy : skipTrivia (u ++ t) = y at htrivia
  cases htrivia with
  | before u' hu' =>
    obtain ⟨c, u'', rfl⟩ := List.exists_cons_of_ne_nil hu'
    obtain ⟨rfl, hafter⟩ : byte ']' = c ∧ after = u'' ++ s := List.cons.inj hx
    subst hafter
    rw [extra_long (by simp), shift_append]
    exact .itemsEnd hy
  | edge =>
    have hshort : after.length < s.length := by simp [← hx]
    have hi := inserts_of_short hr hshort
    have hword : skipTrivia (u ++ t) = referenceText n ++ s := hy.trans hi.skipTrivia_eq
    have hself : skipTrivia s = byte ']' :: after := by
      rw [← hx]
      exact skipTrivia_cons (by decide) (by decide) after
    rw [extra, if_pos ⟨rfl, by simp [← hx]⟩, shift_short hshort]
    have hitem := @Reads.item depth (u ++ t) s after [] (hword ▸ hi.reads depth) (.itemsEnd hself)
    rw [hword] at hitem
    exact hitem
  | comment =>
    have hlen := comment_shorter (s := s) (by simp [hhead])
    rw [← hx, List.length_cons] at hlen
    have hi := inserts_of_short hr (by omega)
    rw [extra_short hlen, shift_short (by omega)]
    refine .itemsEnd ?_
    rw [hy, hi.comment, hx]

/-- **A number or a reference** of an edited input. -/
theorem atom_splice (hs : Splice s t) {depth : Nat} {input first after : Bytes} (hin : s <:+ input)
    (h : Pdf.atom (skipTrivia input) = .ok (first, after))
    (hr : s <:+ consumeReferenceTail first after ∨ Inserts n s t) :
    Reads .value depth (Pdf.shift s t input) []
      (Pdf.shift s t (consumeReferenceTail first after)) := by
  obtain ⟨hfirst, hafter, b, rest, heq, hb⟩ := atom_eq_ok h
  have hdrop : after <:+ rest := by
    rw [hafter, heq, List.dropWhile_cons_of_pos hb]
    exact List.dropWhile_suffix _
  have htail := (consumeReferenceTail_suffix first after).trans hdrop
  have hbracket : b ≠ byte ']' := by
    intro hx
    rw [hx] at hb
    exact absurd hb (by decide)
  obtain ⟨hopen, hrest⟩ := opening_splice hs hin heq hbracket htail hr
  rw [heq] at hfirst hafter
  rcases hrest with ⟨u, rfl⟩ | hrest
  · obtain ⟨b₀, s', hhead, hreg, -, -⟩ := hs.head
    obtain ⟨b₁, t', hblank, hreg'⟩ := hs.unregular
    obtain ⟨u', h1, h2, h3⟩ := takeWhile_splice (u := b :: u) hhead hblank hreg hreg'
    simp only [List.cons_append] at h1 h2 h3
    obtain rfl : after = u' ++ s := hafter.trans h1
    have hatom : Pdf.atom (skipTrivia (Pdf.shift s t input)) = .ok (first, u' ++ t) := by
      rw [hopen, shift_append, atom_cons hb, h2, ← h3, hfirst]
    rw [← consumeReferenceTail_splice hs hr]
    exact .atom hatom
  · have hlen := htail.length_le
    rw [shift_short hrest] at hopen
    rw [shift_short (hlen.trans_lt hrest)]
    refine .atom ?_
    rw [hopen, ← heq]
    exact h

/-- **The key** of an entry of an edited input. -/
theorem key_splice (hs : Splice s t) {input key named after : Bytes} (hin : s <:+ input)
    (h : Pdf.name (skipTrivia input) = .ok (key, named)) (hafter : after <:+ named)
    (hr : s <:+ after ∨ Inserts n s t) :
    Pdf.name (skipTrivia (Pdf.shift s t input)) = .ok (key, Pdf.shift s t named) ∧
      (s <:+ named ∨ named.length < s.length) := by
  obtain ⟨tail, heq, hname⟩ := name_eq_ok h
  have hsuf := nameRemainder_suffix hname
  obtain ⟨hopen, htail⟩ := opening_splice hs hin heq (by decide) (hafter.trans hsuf) hr
  rw [hopen, name_cons]
  rcases htail with ⟨u, rfl⟩ | htail
  · obtain ⟨hnamed, hrun⟩ := name_splice hs hname
    rw [shift_append]
    exact ⟨hrun, .inl hnamed⟩
  · have hshort := hsuf.length_le.trans_lt htail
    rw [shift_short htail, shift_short hshort]
    exact ⟨hname, .inr hshort⟩

/-- A literal string of an edited input. -/
theorem literalString_splice (hs : Splice s t) {depth : Nat} {input rest after : Bytes}
    (hin : s <:+ input) (hopen : skipTrivia input = byte '(' :: rest)
    (h : literalStringRemainder 1 rest = .ok after) (hr : s <:+ after ∨ Inserts n s t) :
    Reads .value depth (Pdf.shift s t input) [] (Pdf.shift s t after) := by
  obtain ⟨hsuf, hlen⟩ := literalStringRemainder_suffix h
  obtain ⟨hopen', hrest⟩ := opening_splice hs hin hopen (by decide) hsuf hr
  refine .literal hopen' ?_
  rcases hrest with ⟨u, rfl⟩ | hrest
  · rw [shift_append]
    exact literal_splice h hr
  · rw [shift_short hrest, shift_short (hlen.trans hrest)]
    exact h

/-- A hexadecimal string of an edited input: what is inserted does not open a dictionary. -/
theorem hexString_splice (hs : Splice s t) {depth : Nat} {input rest after : Bytes}
    (hin : s <:+ input) (hopen : skipTrivia input = byte '<' :: rest)
    (hsingle : rest.head? ≠ some (byte '<')) (h : hexStringRemainder rest = .ok after)
    (hr : s <:+ after ∨ Inserts n s t) :
    Reads .value depth (Pdf.shift s t input) [] (Pdf.shift s t after) := by
  obtain ⟨hsuf, hlen⟩ := hexStringRemainder_suffix h
  obtain ⟨hopen', hrest⟩ := opening_splice hs hin hopen (by decide) hsuf hr
  rcases hrest with ⟨u, rfl⟩ | hrest
  · rw [shift_append] at hopen'
    refine .hex hopen' ?_ (hex_splice h hr)
    cases u with
    | nil =>
      obtain ⟨b', t', hblank, hspace⟩ := hs.blank
      rw [hblank]
      intro hhead
      rw [Option.some.inj hhead] at hspace
      exact absurd hspace (by decide)
    | cons b u => exact hsingle
  · rw [shift_short hrest] at hopen'
    rw [shift_short (hlen.trans hrest)]
    exact .hex hopen' hsingle h

/-- A name of an edited input. -/
theorem nameValue_splice (hs : Splice s t) {depth : Nat} {input rest decoded after : Bytes}
    (hin : s <:+ input) (hopen : skipTrivia input = byte '/' :: rest)
    (h : nameRemainder rest = .ok (decoded, after)) (hr : s <:+ after ∨ Inserts n s t) :
    Reads .value depth (Pdf.shift s t input) [] (Pdf.shift s t after) := by
  have hsuf := nameRemainder_suffix h
  obtain ⟨hopen', hrest⟩ := opening_splice hs hin hopen (by decide) hsuf hr
  rcases hrest with ⟨u, rfl⟩ | hrest
  · rw [shift_append] at hopen'
    exact .name hopen' (name_splice hs h).2
  · rw [shift_short hrest] at hopen'
    rw [shift_short (hsuf.length_le.trans_lt hrest)]
    exact .name hopen' h

variable (s t n) in
/-- What a reading becomes under the edit, where that is not in the midst of it. -/
def Splices (part : Part) (depth : Nat) (input : Bytes) (members : List Member)
    (after : Bytes) : Prop :=
  (s <:+ input ∨ input.length < s.length) → (s <:+ after ∨ Inserts n s t) →
    Reads part depth (Pdf.shift s t input) (members.map (Member.shift s t) ++ extra n s part after)
      (Pdf.shift s t after)

/-- An element of an edited array, and those behind it. -/
theorem item_splice (hs : Splice s t) {depth : Nat} {input after rest : Bytes}
    {members : List Member} (hitem : Reads .value depth (skipTrivia input) [] after)
    (hitems : Reads .items depth after members rest) (hin : s <:+ input)
    (hr : s <:+ rest ∨ Inserts n s t)
    (ihItem : Splices s t n .value depth (skipTrivia input) [] after)
    (ihItems : Splices s t n .items depth after members rest) :
    Reads .items depth (Pdf.shift s t input)
      ((⟨[], skipTrivia input, after⟩ :: members).map (Member.shift s t) ++ extra n s .items rest)
      (Pdf.shift s t rest) := by
  obtain ⟨heq, hcase⟩ := value_splice hs hitem hitems.behind.1 (.inl hin) hr
  have hafter := suffix_or_short (hitem.behind.1.trans (skipTrivia_suffix input)) hin
  have h1 := ihItem hcase (hr.imp_left fun hx => hx.trans hitems.behind.1)
  have h2 := ihItems hafter hr
  rw [extra_part (by decide), ← heq] at h1
  have h3 := Reads.item h1 h2
  rw [heq] at h3
  exact h3

/-- An entry of an edited dictionary, and those behind it. -/
theorem entry_splice (hs : Splice s t) {depth : Nat} {input named key after rest : Bytes}
    {members : List Member} (hname : Pdf.name (skipTrivia input) = .ok (key, named))
    (hvalue : Reads .value depth (skipTrivia named) [] after)
    (hentries : Reads .entries depth after members rest) (hin : s <:+ input)
    (hr : s <:+ rest ∨ Inserts n s t)
    (ihValue : Splices s t n .value depth (skipTrivia named) [] after)
    (ihEntries : Splices s t n .entries depth after members rest) :
    Reads .entries depth (Pdf.shift s t input)
      ((⟨key, skipTrivia named, after⟩ :: members).map (Member.shift s t) ++
        extra n s .entries rest) (Pdf.shift s t rest) := by
  have hsuf := hvalue.behind.1.trans (skipTrivia_suffix named)
  obtain ⟨hkey, hnamed⟩ := key_splice hs hin hname (hentries.behind.1.trans hsuf) hr
  obtain ⟨heq, hcase⟩ := value_splice hs hvalue hentries.behind.1 hnamed hr
  have hafter := suffix_or_short
    (hsuf.trans ((name_suffix hname).trans (skipTrivia_suffix input))) hin
  have h1 := ihValue hcase (hr.imp_left fun hx => hx.trans hentries.behind.1)
  have h2 := ihEntries hafter hr
  rw [extra_part (by decide), ← heq] at h1
  rw [extra_part (by decide)] at h2 ⊢
  have h3 := Reads.entry hkey h1 h2
  rw [heq] at h3
  exact h3

/-- **Reading edited bytes**: the members are those read before, edited, and an array whose
    own bracket was found has one more. -/
theorem Reads.splice (hs : Splice s t) {part : Part} {depth : Nat} {input after : Bytes}
    {members : List Member} (h : Reads part depth input members after) :
    Splices s t n part depth input members after := by
  induction h with
  | @dictionary depth input rest after members hopen hdepth h ih =>
    rintro (hin | hin) hr
    · have hsuf : after <:+ byte '<' :: rest := h.behind.1.trans (List.suffix_cons _ _)
      obtain ⟨hopen', hrest⟩ := opening_splice hs hin hopen (by decide) hsuf hr
      obtain ⟨-, hshift, hrest⟩ := cons_splice (by decide) h.behind.1 hr hrest
      rw [hshift] at hopen'
      rw [extra_part (by decide)]
      exact .dictionary hopen' hdepth (ih hrest hr)
    · exact (Reads.dictionary hopen hdepth h).unshifted hin
  | @array depth input rest after members hopen hdepth h ih =>
    rintro (hin | hin) hr
    · obtain ⟨hopen', hrest⟩ := opening_splice hs hin hopen (by decide) h.behind.1 hr
      rw [extra_part (by decide)]
      exact .array hopen' hdepth (ih hrest hr)
    · exact (Reads.array hopen hdepth h).unshifted hin
  | literal hopen h =>
    rintro (hin | hin) hr
    · rw [extra_part (by decide)]
      exact literalString_splice hs hin hopen h hr
    · exact (Reads.literal hopen h).unshifted hin
  | hex hopen hsingle h =>
    rintro (hin | hin) hr
    · rw [extra_part (by decide)]
      exact hexString_splice hs hin hopen hsingle h hr
    · exact (Reads.hex hopen hsingle h).unshifted hin
  | name hopen h =>
    rintro (hin | hin) hr
    · rw [extra_part (by decide)]
      exact nameValue_splice hs hin hopen h hr
    · exact (Reads.name hopen h).unshifted hin
  | atom h =>
    rintro (hin | hin) hr
    · rw [extra_part (by decide)]
      exact atom_splice hs hin h hr
    · exact (Reads.atom h).unshifted hin
  | itemsEnd h =>
    rintro (hin | hin) hr
    · exact itemsEnd_splice hs hin h hr
    · exact (Reads.itemsEnd h).unshifted hin
  | item hitem hitems ihItem ihItems =>
    rintro (hin | hin) hr
    · exact item_splice hs hitem hitems hin hr ihItem ihItems
    · exact (Reads.item hitem hitems).unshifted hin
  | entriesEnd h =>
    rintro (hin | hin) hr
    · obtain ⟨hopen', hrest⟩ := opening_splice hs hin h (by decide) (List.suffix_cons _ _) hr
      obtain ⟨-, hshift, -⟩ := cons_splice (by decide) List.suffix_rfl hr hrest
      rw [hshift] at hopen'
      rw [extra_part (by decide)]
      exact .entriesEnd hopen'
    · exact (Reads.entriesEnd h).unshifted hin
  | entry hname hvalue hentries ihValue ihEntries =>
    rintro (hin | hin) hr
    · exact entry_splice hs hname hvalue hentries hin hr ihValue ihEntries
    · exact (Reads.entry hname hvalue hentries).unshifted hin

end splice

end Pdf

end RefineId
