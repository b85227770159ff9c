/-
  RefineId.PdfScan — the two scanners of PDF dictionaries.
  ════════════════════════════════════════════════════════════════════════════

  `dictionary_at` of `crates/refineid-doc-sign/src/pades.rs` walks a document byte by byte and
  counts `<<` and `>>`, in a state that knows strings and comments; `PdfDictionary::parse` takes a
  dictionary apart by the value grammar.  Whatever the grammar derives the walk passes over, and
  it stops at the `>>` that closes the outer dictionary.  The parser lets trivia stand behind it,
  and a comment there may end in `>>` as well.

  Main results:
    • `Reads.passes`           : the walk passes over what the grammar derives.
    • `dictionaryAt_closing`   : the walk stops at the closing `>>` of the parser.
    • `Call.reached_depth`     : how deep the parser calls itself.
    • `scanners_agree`         : both, with the spans of the entries.
-/
import RefineId.PdfLists

namespace RefineId

open Lib

namespace Pdf

/-! ## §1. Walking over bytes -/

/-- The loop of `dictionary_at` walks over some bytes from one state to another, whatever follows
    them. -/
def Walks (depth : Nat) (state : Scan) (walked : Bytes) (depth' : Nat) (state' : Scan) : Prop :=
  ∀ rest, dictionaryLength depth state (walked ++ rest) =
    (dictionaryLength depth' state' rest).map (· + walked.length)

/-- It passes over them, and is where it was. -/
def Passes (depth : Nat) (walked : Bytes) : Prop := Walks depth .regular walked depth .regular

theorem Walks.nil (depth : Nat) (state : Scan) : Walks depth state [] depth state := by
  intro rest
  show dictionaryLength depth state rest = _
  simp

theorem Walks.append {depth depth' depth'' : Nat} {state state' state'' : Scan} {u v : Bytes}
    (hu : Walks depth state u depth' state') (hv : Walks depth' state' v depth'' state'') :
    Walks depth state (u ++ v) depth'' state'' := by
  intro rest
  rw [List.append_assoc, hu, hv, Option.map_map]
  congr 1
  funext n
  simp only [Function.comp, List.length_append]
  omega

/-- A single byte, by what the loop does with it. -/
theorem Walks.byte {depth depth' : Nat} {state state' : Scan} {b : UInt8}
    (h : ∀ rest, dictionaryLength depth state (b :: rest) =
      (dictionaryLength depth' state' rest).map (· + 1)) : Walks depth state [b] depth' state' := h

theorem Walks.cons {depth depth' depth'' : Nat} {state state' state'' : Scan} {b : UInt8} {v : Bytes}
    (hb : Walks depth state [b] depth' state') (hv : Walks depth' state' v depth'' state'') :
    Walks depth state (b :: v) depth'' state'' := hb.append hv

section
variable {k : Nat}

/-- A byte that is no bracket of a dictionary. -/
theorem dictionaryLength_byte {b : UInt8} (hopen : b ≠ byte '<') (hclose : b ≠ byte '>')
    (rest : Bytes) : dictionaryLength k .regular (b :: rest) =
      (dictionaryLength k (if b = byte '%' then .comment
        else if b = byte '(' then .literalString 1 false else .regular) rest).map (· + 1) := by
  rw [dictionaryLength.eq_def]
  simp only [if_neg hopen, if_neg hclose]
  split
  · rfl
  · split
    · rfl
    · rfl

/-- A byte that begins nothing. -/
theorem walks_plain {b : UInt8} (hcomment : b ≠ byte '%') (hliteral : b ≠ byte '(')
    (hopen : b ≠ byte '<') (hclose : b ≠ byte '>') : Passes k [b] := by
  refine Walks.byte fun rest => ?_
  rw [dictionaryLength_byte hopen hclose, if_neg hcomment, if_neg hliteral]

theorem walks_comment : Walks k .regular [byte '%'] k .comment := by
  refine Walks.byte fun rest => ?_
  rw [dictionaryLength_byte (by decide) (by decide), if_pos rfl]

theorem walks_commented (b : UInt8) :
    Walks k .comment [b] k (if b = 13 || b = 10 then .regular else .comment) :=
  Walks.byte fun _ => rfl

theorem walks_literal : Walks k .regular [byte '('] k (.literalString 1 false) := by
  refine Walks.byte fun rest => ?_
  rw [dictionaryLength_byte (by decide) (by decide), if_neg (by decide), if_pos rfl]

theorem walks_string (inner : Nat) (escaped : Bool) (b : UInt8) :
    Walks k (.literalString inner escaped) [b] k (literalStep inner escaped b) :=
  Walks.byte fun _ => rfl

theorem walks_hexDigit (b : UInt8) :
    Walks k .hexString [b] k (if b = byte '>' then .regular else .hexString) :=
  Walks.byte fun _ => rfl

/-- What stands behind a `<` decides what it opens. -/
theorem dictionaryLength_open (c : UInt8) (rest : Bytes) :
    dictionaryLength k .regular (byte '<' :: c :: rest) =
      if c = byte '<' then (dictionaryLength (deeper k) .regular rest).map (· + 2)
      else (dictionaryLength k .hexString (c :: rest)).map (· + 1) := by
  show (if byte '<' = byte '%' then _ else if byte '<' = byte '(' then _
    else if byte '<' = byte '<' then _ else _) = _
  rw [if_neg (by decide), if_neg (by decide), if_pos rfl]

/-- A pair of `>` closes a dictionary, and the outer one ends the walk. -/
theorem dictionaryLength_pair (rest : Bytes) :
    dictionaryLength k .regular (byte '>' :: byte '>' :: rest) =
      if k = 0 then none else if k = 1 then some 2
      else (dictionaryLength (k - 1) .regular rest).map (· + 2) := by
  show (if byte '>' = byte '%' then _ else if byte '>' = byte '(' then _
    else if byte '>' = byte '<' then _ else if byte '>' = byte '>' then
      (if byte '>' = byte '>' then _ else _) else _) = _
  rw [if_neg (by decide), if_neg (by decide), if_neg (by decide), if_pos rfl, if_pos rfl]

/-- `<<` opens a dictionary. -/
theorem walks_open (h : k + 1 ≤ u32Max) :
    Walks k .regular [byte '<', byte '<'] (k + 1) .regular := by
  intro rest
  have hdeeper : deeper k = k + 1 := Nat.min_eq_left h
  show dictionaryLength k .regular (byte '<' :: byte '<' :: rest) = _
  rw [dictionaryLength_open, if_pos rfl, hdeeper]
  rfl

/-- `>>` closes an inner dictionary. -/
theorem walks_close (h : 0 < k) : Walks (k + 1) .regular [byte '>', byte '>'] k .regular := by
  intro rest
  show dictionaryLength (k + 1) .regular (byte '>' :: byte '>' :: rest) = _
  rw [dictionaryLength_pair, if_neg (by omega), if_neg (by omega), Nat.add_sub_cancel]
  rfl

/-- `>>` closes the outer one, and ends the walk. -/
theorem dictionaryLength_close (rest : Bytes) :
    dictionaryLength 1 .regular (byte '>' :: byte '>' :: rest) = some 2 := by
  rw [dictionaryLength_pair, if_neg (by decide), if_pos rfl]

/-! ## §2. What the pieces of a value are -/

theorem Passes.append {u v : Bytes} (hu : Passes k u) (hv : Passes k v) : Passes k (u ++ v) :=
  Walks.append hu hv

theorem isRegular_plain {b : UInt8} (h : isRegular b = true) : Passes k [b] := by
  refine walks_plain ?_ ?_ ?_ ?_ <;>
  · rintro rfl
    exact absurd h (by decide)

theorem whitespace_plain {b : UInt8} (h : isWhitespace b = true) : Passes k [b] := by
  refine walks_plain ?_ ?_ ?_ ?_ <;>
  · rintro rfl
    exact absurd h (by decide)

/-- Regular bytes are passed over. -/
theorem passes_regular {run : Bytes} (h : ∀ b ∈ run, isRegular b = true) : Passes k run := by
  induction run with
  | nil => exact Walks.nil k .regular
  | cons b run ih =>
    exact Walks.cons (isRegular_plain (h b List.mem_cons_self))
      (ih fun c hc => h c (List.mem_cons_of_mem _ hc))

/-- **Trivia** is passed over up to the byte that ends it. -/
theorem trivia_walks (comment : Bool) {input rest : Bytes} {b : UInt8}
    (h : skipTriviaFrom comment input = b :: rest) :
    ∃ trivia, input = trivia ++ b :: rest ∧
      Walks k (if comment then .comment else .regular) trivia k .regular := by
  induction input generalizing comment with
  | nil => cases h
  | cons c input ih =>
    simp only [skipTriviaFrom] at h
    cases comment with
    | true =>
      -- the line end closes the comment for both
      simp only [if_true] at h
      obtain ⟨trivia, hsplit, hwalk⟩ := ih _ h
      refine ⟨c :: trivia, by rw [hsplit]; rfl, Walks.cons (walks_commented c) ?_⟩
      cases hline : (c = 13 || c = 10) with
      | true => simpa [hline] using hwalk
      | false => simpa [hline] using hwalk
    | false =>
      simp only [Bool.false_eq_true, if_false] at h
      split_ifs at h with hspace hcomment
      · obtain ⟨trivia, hsplit, hwalk⟩ := ih _ h
        exact ⟨c :: trivia, by rw [hsplit]; rfl, Walks.cons (whitespace_plain hspace) hwalk⟩
      · obtain ⟨trivia, hsplit, hwalk⟩ := ih _ h
        refine ⟨c :: trivia, by rw [hsplit]; rfl, Walks.cons ?_ hwalk⟩
        rw [hcomment]
        exact walks_comment
      · exact ⟨[], h, Walks.nil k .regular⟩

theorem skipTrivia_passes {input rest : Bytes} {b : UInt8} (h : skipTrivia input = b :: rest) :
    ∃ trivia, input = trivia ++ b :: rest ∧ Passes k trivia := trivia_walks false h

/-- **A literal string** is left where the parser leaves it. -/
theorem literal_walks {depth : Nat} {input after : Bytes} (hdepth : depth ≤ maxPdfValueDepth)
    (h : literalStringRemainder depth input = .ok after) :
    ∃ body, input = body ++ after ∧ Walks k (.literalString depth false) body k .regular := by
  fun_induction literalStringRemainder depth input with
  | case1 => cases h
  | case2 => cases h
  | case3 => cases h
  | case4 depth c d rest hline ih =>
    -- an escaped line end of two bytes: the second one is no escape, and no bracket
    obtain ⟨body, hsplit, hwalk⟩ := ih hdepth h
    refine ⟨byte '\\' :: c :: d :: body, by rw [hsplit]; rfl, ?_⟩
    obtain ⟨rfl, rfl⟩ : c = 13 ∧ d = 10 := by simpa using hline
    exact Walks.cons (walks_string depth false _) (Walks.cons (walks_string depth true _)
      (Walks.cons (walks_string depth false _) hwalk))
  | case5 depth c d rest _ ih =>
    obtain ⟨body, hsplit, hwalk⟩ := ih hdepth h
    refine ⟨byte '\\' :: c :: body, by rw [hsplit]; rfl, ?_⟩
    exact Walks.cons (walks_string depth false _) (Walks.cons (walks_string depth true c) hwalk)
  | case6 depth rest _ ih =>
    obtain ⟨_, hdeeper, hrest⟩ := bind_eq_ok.mp h
    have hle := checkDepth_eq_ok hdeeper
    obtain ⟨body, hsplit, hwalk⟩ := ih hle hrest
    refine ⟨byte '(' :: body, by rw [hsplit]; rfl, Walks.cons (walks_string depth false _) ?_⟩
    have hnext : literalStep depth false (byte '(') = .literalString (depth + 1) false := by
      have hdeep : deeper depth = depth + 1 := by
        unfold maxPdfValueDepth at hle
        exact Nat.min_eq_left (by unfold u32Max; omega)
      simp [literalStep, byte, hdeep]
    rw [hnext]
    exact hwalk
  | case7 depth rest hzero =>
    obtain rfl := Except.ok.inj h
    refine ⟨[byte ')'], rfl, ?_⟩
    have hnext : literalStep depth false (byte ')') = .regular := by
      simp [literalStep, byte, hzero]
    rw [← hnext]
    exact walks_string depth false _
  | case8 depth rest hzero _ _ ih =>
    obtain ⟨body, hsplit, hwalk⟩ := ih (by omega) h
    refine ⟨byte ')' :: body, by rw [hsplit]; rfl, Walks.cons (walks_string depth false _) ?_⟩
    have hnext : literalStep depth false (byte ')') = .literalString (depth - 1) false := by
      simp [literalStep, byte, hzero]
    rw [hnext]
    exact hwalk
  | case9 depth b rest hescape hopen hclose ih =>
    obtain ⟨body, hsplit, hwalk⟩ := ih hdepth h
    refine ⟨b :: body, by rw [hsplit]; rfl, Walks.cons (walks_string depth false b) ?_⟩
    have hnext : literalStep depth false b = .literalString depth false := by
      simp [literalStep, hescape, hopen, hclose]
    rw [hnext]
    exact hwalk

/-- **A hexadecimal string** is left where the parser leaves it. -/
theorem hex_walks {input after : Bytes} (h : hexStringRemainder input = .ok after) :
    ∃ body, input = body ++ after ∧ Walks k .hexString body k .regular ∧ body ≠ [] := by
  induction input with
  | nil => cases h
  | cons b input ih =>
    simp only [hexStringRemainder] at h
    have hstep := walks_hexDigit (k := k) b
    split_ifs at h with hclose
    · obtain rfl := Except.ok.inj h
      rw [if_pos hclose] at hstep
      exact ⟨[b], rfl, hstep, List.cons_ne_nil _ _⟩
    · obtain ⟨body, hsplit, hwalk, -⟩ := ih h
      rw [if_neg hclose] at hstep
      exact ⟨b :: body, by rw [hsplit]; rfl, Walks.cons hstep hwalk, List.cons_ne_nil _ _⟩

/-- A `<` that no other one follows opens a hexadecimal string. -/
theorem hex_passes {body : Bytes} (hbody : Walks k .hexString body k .regular) (hne : body ≠ [])
    (hsingle : body.head? ≠ some (byte '<')) : Passes k (byte '<' :: body) := by
  intro rest
  cases body with
  | nil => exact absurd rfl hne
  | cons c body =>
    have hc : c ≠ byte '<' := fun heq => hsingle (congrArg some heq)
    have hrest := hbody rest
    rw [List.cons_append] at hrest
    show dictionaryLength k .regular (byte '<' :: c :: (body ++ rest)) = _
    rw [dictionaryLength_open, if_neg hc, hrest, Option.map_map]
    rfl

/-- A name is a run of regular bytes. -/
theorem nameRemainder_regular {input decoded after : Bytes}
    (h : nameRemainder input = .ok (decoded, after)) :
    ∃ run, input = run ++ after ∧ ∀ b ∈ run, isRegular b = true := by
  have hdigit : ∀ {b : UInt8} {n : Nat}, hexDigit b = some n → isRegular b = true := by
    intro b n hb
    by_contra hregular
    rw [hexDigit_eq_none (Bool.not_eq_true _ ▸ hregular)] at hb
    cases hb
  fun_induction nameRemainder input generalizing decoded with
  | case1 =>
    obtain ⟨-, rfl⟩ := Prod.mk.inj (Except.ok.inj h)
    exact ⟨[], rfl, fun b hb => absurd hb List.not_mem_nil⟩
  | case2 b rest =>
    obtain ⟨-, rfl⟩ := Prod.mk.inj (Except.ok.inj h)
    exact ⟨[], rfl, fun b hb => absurd hb List.not_mem_nil⟩
  | case3 c l rest _ _ hlow hhigh _ ih =>
    obtain ⟨⟨name', rest'⟩, hname, heq⟩ := bind_eq_ok.mp h
    obtain ⟨-, rfl⟩ := Prod.mk.inj (pure_eq_ok.mp heq)
    obtain ⟨run, hsplit, hrun⟩ := ih hname
    refine ⟨byte '#' :: c :: l :: run, by rw [hsplit]; rfl, ?_⟩
    have hhash : isRegular (byte '#') = true := by decide
    intro b hb
    simp only [List.mem_cons] at hb
    obtain rfl | rfl | rfl | hb := hb
    · exact hhash
    · exact hdigit hhigh
    · exact hdigit hlow
    · exact hrun b hb
  | case4 => cases h
  | case5 => cases h
  | case6 b rest hregular _ ih =>
    obtain ⟨⟨name', rest'⟩, hname, heq⟩ := bind_eq_ok.mp h
    obtain ⟨-, rfl⟩ := Prod.mk.inj (pure_eq_ok.mp heq)
    obtain ⟨run, hsplit, hrun⟩ := ih hname
    refine ⟨b :: run, by rw [hsplit]; rfl, fun c hc => ?_⟩
    obtain rfl | hc := List.mem_cons.mp hc
    · simpa using hregular
    · exact hrun c hc

/-- The end of a reference is trivia, digits, trivia and `R`. -/
theorem referenceTail_passes {input after : Bytes} (h : referenceTail input = some after) :
    ∃ body, input = body ++ after ∧ Passes k body := by
  rw [referenceTail_eq, tailAt] at h
  obtain ⟨⟨generation, behind⟩, hnumber, hkeyword⟩ := Option.bind_eq_some_iff.mp h
  obtain ⟨⟨digits, behind'⟩, hdigits, hmap⟩ := Option.bind_eq_some_iff.mp hnumber
  obtain ⟨_, -, heq⟩ := Option.map_eq_some_iff.mp hmap
  obtain rfl : behind' = behind := (Prod.mk.inj heq).2
  have hr : skipTrivia behind' = ascii "R" ++ after := (consumeKeyword_eq_some.mp hkeyword).1
  -- the digits, behind their trivia
  unfold digitsAt at hdigits
  split_ifs at hdigits with hnone
  obtain ⟨hd, hb⟩ := Prod.mk.inj (Option.some.inj hdigits)
  have hsplit : skipTrivia input = digits ++ behind' := by
    rw [← hd, ← hb, List.takeWhile_append_dropWhile]
  have hregular : ∀ b ∈ digits, isRegular b = true := by
    intro b hmem
    rw [← hd] at hmem
    exact digit_regular (List.mem_takeWhile_imp hmem)
  have hne : digits ≠ [] := by
    rintro rfl
    rw [hd] at hnone
    exact hnone rfl
  obtain ⟨d, digits', rfl⟩ := List.exists_cons_of_ne_nil hne
  obtain ⟨trivia, hinput, htrivia⟩ :=
    skipTrivia_passes (k := k) (show skipTrivia input = d :: (digits' ++ behind') from hsplit)
  obtain ⟨trivia', hbehind, htrivia'⟩ :=
    skipTrivia_passes (k := k) (show skipTrivia behind' = byte 'R' :: after from hr)
  refine ⟨trivia ++ (d :: digits' ++ (trivia' ++ [byte 'R'])), ?_, ?_⟩
  · rw [hinput, hbehind]
    simp only [List.cons_append, List.append_assoc, List.nil_append]
  · exact htrivia.append ((passes_regular hregular).append
      (htrivia'.append (isRegular_plain (by decide))))

theorem consumeReferenceTail_passes (first input : Bytes) :
    ∃ body, input = body ++ consumeReferenceTail first input ∧ Passes k body := by
  rw [consumeReferenceTail_eq]
  split
  · cases htail : referenceTail input with
    | none => exact ⟨[], rfl, Walks.nil k .regular⟩
    | some after => exact referenceTail_passes htail
  · exact ⟨[], rfl, Walks.nil k .regular⟩

/-- A value behind its trivia. -/
theorem passes_behind {input rest after : Bytes} {b : UInt8} {walked : Bytes}
    (h : skipTrivia input = b :: rest) (hsplit : b :: rest = walked ++ after)
    (hwalked : Passes k walked) : ∃ body, input = body ++ after ∧ Passes k body := by
  obtain ⟨trivia, hinput, htrivia⟩ := skipTrivia_passes (k := k) h
  exact ⟨trivia ++ walked, by rw [hinput, hsplit, List.append_assoc], htrivia.append hwalked⟩

end

/-! ## §3. What the grammar derives -/

/-- What of a part the walk has not passed over where the parser has read it. -/
def Part.closing : Part → Bytes
  | .value => []
  | .items => []
  | .entries => [byte '>', byte '>']

/-- **The walk passes over what the grammar derives**, in the dictionaries that are open. -/
theorem Reads.passes {part : Part} {depth : Nat} {input after : Bytes} {members : List Member}
    (h : Reads part depth input members after) (hdepth : depth ≤ maxPdfValueDepth) :
    ∀ k, 0 < k → k ≤ depth → ∃ body, input = body ++ (part.closing ++ after) ∧ Passes k body := by
  induction h with
  | @dictionary depth input rest after members hopen hinner _ ih =>
    intro k hpos hk
    obtain ⟨body, hsplit, hbody⟩ := ih hinner (k + 1) (Nat.succ_pos k) (Nat.succ_le_succ hk)
    have hlimit : k + 1 ≤ u32Max := by
      unfold maxPdfValueDepth at hinner
      unfold u32Max
      omega
    have hwalk : Passes k ([byte '<', byte '<'] ++ (body ++ [byte '>', byte '>'])) :=
      (walks_open hlimit).append (Walks.append hbody (walks_close hpos))
    refine passes_behind hopen ?_ hwalk
    rw [hsplit]
    simp only [List.cons_append, List.nil_append, List.append_assoc, Part.closing]
  | @array depth input rest after members hopen hinner _ ih =>
    intro k hpos hk
    obtain ⟨body, hsplit, hbody⟩ := ih hinner k hpos (Nat.le_succ_of_le hk)
    have hbracket : Passes k [byte '['] :=
      walks_plain (by decide) (by decide) (by decide) (by decide)
    exact passes_behind hopen (by rw [hsplit]; rfl) (Walks.cons hbracket hbody)
  | literal hopen hstring =>
    intro k _ _
    obtain ⟨body, hsplit, hbody⟩ := literal_walks (k := k) (by decide) hstring
    exact passes_behind hopen (by rw [hsplit]; rfl) (Walks.cons walks_literal hbody)
  | hex hopen hsingle hstring =>
    intro k _ _
    obtain ⟨body, hsplit, hbody, hne⟩ := hex_walks (k := k) hstring
    have hhead : body.head? ≠ some (byte '<') := by
      rw [hsplit, List.head?_append_of_ne_nil _ hne] at hsingle
      exact hsingle
    exact passes_behind hopen (by rw [hsplit]; rfl) (hex_passes hbody hne hhead)
  | name hopen hname =>
    intro k _ _
    obtain ⟨run, hsplit, hrun⟩ := nameRemainder_regular hname
    have hslash : Passes k [byte '/'] :=
      walks_plain (by decide) (by decide) (by decide) (by decide)
    exact passes_behind hopen (by rw [hsplit]; rfl) (Walks.cons hslash (passes_regular hrun))
  | @atom depth input first after hatom =>
    intro k _ _
    obtain ⟨rfl, rfl, b, rest, hopen, hb⟩ := atom_eq_ok hatom
    obtain ⟨tail, hsplit, htail⟩ := consumeReferenceTail_passes (k := k)
      ((skipTrivia input).takeWhile isRegular) ((skipTrivia input).dropWhile isRegular)
    have hrun : Passes k ((skipTrivia input).takeWhile isRegular) :=
      passes_regular fun c hc => List.mem_takeWhile_imp hc
    refine passes_behind hopen ?_ (hrun.append htail)
    rw [← hopen, List.append_assoc]
    show _ = _ ++ (tail ++ consumeReferenceTail _ _)
    rw [← hsplit, List.takeWhile_append_dropWhile]
  | itemsEnd hclose =>
    intro k _ _
    have hbracket : Passes k [byte ']'] :=
      walks_plain (by decide) (by decide) (by decide) (by decide)
    exact passes_behind hclose rfl hbracket
  | @item depth input after rest members hitem _ ihItem ihItems =>
    intro k hpos hk
    obtain ⟨b, behind, hhead, -⟩ := hitem.value_head
    rw [skipTrivia_skipTrivia] at hhead
    obtain ⟨item, hsplit, hwalk⟩ := ihItem hdepth k hpos hk
    obtain ⟨others, hothers, hmore⟩ := ihItems hdepth k hpos hk
    refine passes_behind hhead ?_ (hwalk.append hmore)
    rw [← hhead, hsplit, hothers]
    simp only [Part.closing, List.nil_append, List.append_assoc]
  | entriesEnd hclose =>
    intro k _ _
    exact skipTrivia_passes hclose
  | @entry depth input named key after rest members hname hvalue _ ihValue ihEntries =>
    intro k hpos hk
    obtain ⟨behind, hslash, hrem⟩ := name_eq_ok hname
    obtain ⟨run, hrun, hregular⟩ := nameRemainder_regular hrem
    obtain ⟨b, start, hstart, -⟩ := hvalue.value_head
    rw [skipTrivia_skipTrivia] at hstart
    obtain ⟨item, hsplit, hwalk⟩ := ihValue hdepth k hpos hk
    obtain ⟨others, hothers, hmore⟩ := ihEntries hdepth k hpos hk
    obtain ⟨trivia, hnamed, htrivia⟩ := skipTrivia_passes (k := k) hstart
    have hbyte : Passes k [byte '/'] :=
      walks_plain (by decide) (by decide) (by decide) (by decide)
    have hentry : Passes k (byte '/' :: (run ++ (trivia ++ (item ++ others)))) :=
      Walks.cons hbyte ((passes_regular hregular).append (htrivia.append (hwalk.append hmore)))
    refine passes_behind hslash ?_ hentry
    rw [hrun, hnamed, ← hstart, hsplit, hothers]
    simp only [Part.closing, List.nil_append, List.append_assoc, List.cons_append]

/-! ## §4. Where the walk stops -/

/-- An accepted dictionary that begins with `<<`: what the parser has walked over, and the trivia
    behind the closing `>>`. -/
theorem parse_split {d : Bytes} {D : PdfDictionary} (h : PdfDictionary.parse d = .ok D)
    (hopen : ascii "<<" <+: d) : ∃ body after,
      d = byte '<' :: byte '<' :: (body ++ byte '>' :: byte '>' :: after) ∧ Passes 1 body ∧
      skipTrivia after = [] ∧ D.closing = body.length + 2 := by
  obtain ⟨rest, members, after, hskip, hreads, hend, rfl⟩ := parse_iff.mp h
  obtain ⟨r, rfl⟩ := hopen
  rw [show ascii "<<" ++ r = byte '<' :: (byte '<' :: r) from rfl,
    skipTrivia_cons (by decide) (by decide)] at hskip
  obtain rfl : r = rest := by simpa using hskip
  obtain ⟨body, hsplit, hbody⟩ := hreads.passes (by decide) 1 (by decide) (by decide)
  refine ⟨body, after, by rw [hsplit]; rfl, hbody, hend, ?_⟩
  have hlength : (ascii "<<" ++ r).length = body.length + after.length + 4 := by
    rw [show ascii "<<" ++ r = byte '<' :: byte '<' :: r from rfl, hsplit]
    simp only [Part.closing, List.length_cons, List.length_append, List.length_nil]
    omega
  show (ascii "<<" ++ r).length - (after.length + 2) = body.length + 2
  omega

/-- **The walk stops at the closing `>>` of the parser**, wherever the dictionary stands. -/
theorem dictionaryAt_closing {d : Bytes} {D : PdfDictionary} (h : PdfDictionary.parse d = .ok D)
    (hopen : ascii "<<" <+: d) (front continuation : Bytes) :
    dictionaryAt (front ++ d ++ continuation) front.length =
      some (d.take (D.closing + 2), front.length + (D.closing + 2)) := by
  obtain ⟨body, after, hd, hbody, -, hclosing⟩ := parse_split h hopen
  have hdrop : (front ++ d ++ continuation).drop front.length = d ++ continuation := by
    rw [List.append_assoc, List.drop_left]
  have hstart : skipPdfWhitespace (front ++ d ++ continuation) front.length = front.length := by
    rw [skipPdfWhitespace, hdrop, hd]
    rfl
  have hprefix : (ascii "<<").isPrefixOf (d ++ continuation) = true :=
    List.isPrefixOf_iff_prefix.mpr (hopen.trans (List.prefix_append d continuation))
  have hlength : dictionaryLength 0 .regular (d ++ continuation) = some (D.closing + 2) := by
    have hfirst := walks_open (k := 0) (by decide)
    have hsplit : d ++ continuation = [byte '<', byte '<'] ++
        (body ++ (byte '>' :: byte '>' :: (after ++ continuation))) := by
      rw [hd]
      simp only [List.cons_append, List.append_assoc, List.nil_append]
    rw [hsplit, hfirst, hbody, dictionaryLength_close, hclosing]
    simp only [Option.map_some, List.length_cons, List.length_nil, Option.some.injEq]
    omega
  have htake : (d ++ continuation).take (D.closing + 2) = d.take (D.closing + 2) := by
    refine List.take_append_of_le_length ?_
    rw [hd, hclosing]
    simp only [List.length_cons, List.length_append]
    omega
  rw [dictionaryAt]
  simp only [hstart, hdrop, hprefix, hlength, htake, if_true, Option.map_some]

theorem skipTrivia_nil_space {trivia : Bytes} (h : skipTrivia trivia = [])
    (hcomment : byte '%' ∉ trivia) : ∀ b ∈ trivia, isWhitespace b = true := by
  induction trivia with
  | nil => exact fun b hb => absurd hb List.not_mem_nil
  | cons c trivia ih =>
    have hc : c ≠ byte '%' := fun heq => hcomment (heq ▸ List.mem_cons_self)
    by_cases hspace : isWhitespace c = true
    · rw [skipTrivia_space hspace] at h
      intro b hb
      obtain rfl | hb := List.mem_cons.mp hb
      · exact hspace
      · exact ih h (fun hmem => hcomment (List.mem_cons_of_mem _ hmem)) b hb
    · rw [skipTrivia_cons (Bool.not_eq_true _ ▸ hspace) hc] at h
      cases h

/-- **What can stand between** the closing `>>` and another one: a comment. -/
theorem closing_last_or_comment {d : Bytes} {D : PdfDictionary} (h : PdfDictionary.parse d = .ok D)
    (hopen : ascii "<<" <+: d) (hend : ascii ">>" <:+ d) :
    D.closing + 2 = d.length ∨ byte '%' ∈ d.drop (D.closing + 2) := by
  obtain ⟨body, after, hd, -, htrivia, hclosing⟩ := parse_split h hopen
  have hafter : d.drop (D.closing + 2) = after := by
    have hfront : d = (byte '<' :: byte '<' :: (body ++ [byte '>', byte '>'])) ++ after := by
      rw [hd]
      simp only [List.cons_append, List.append_assoc, List.nil_append]
    rw [hfront, hclosing]
    refine List.drop_left' ?_
    simp only [List.length_cons, List.length_append, List.length_nil]
  rw [hafter]
  by_cases hnil : after = []
  · left
    rw [hd, hclosing, hnil]
    simp only [List.length_cons, List.length_append, List.length_nil]
  · right
    by_contra hcomment
    -- the last byte would be white space, and is `>`
    have hlast : byte '>' ∈ after := by
      have hsuffix : after <:+ d := hafter ▸ List.drop_suffix _ _
      have hone : [byte '>'] <:+ after :=
        List.suffix_of_suffix_length_le ((List.suffix_cons (byte '>') [byte '>']).trans hend)
          hsuffix (List.length_pos_iff.mpr hnil)
      exact hone.subset List.mem_cons_self
    exact absurd (skipTrivia_nil_space htrivia hcomment _ hlast) (by decide)

/-! ## §5. How deep the parser calls itself -/

/-- A call of one of the three functions of the parser: what it reads, its `depth`, and where it
    stands. -/
structure Call where
  part : Part
  depth : Nat
  input : Bytes
  deriving Repr, DecidableEq

/-- One call makes another, or turns its loop to the next member. -/
inductive Call.Makes : Call → Call → Prop
  | dictionary {depth : Nat} {input rest : Bytes}
      (hopen : skipTrivia input = byte '<' :: byte '<' :: rest) :
      Makes ⟨.value, depth, input⟩ ⟨.entries, depth + 1, rest⟩
  | array {depth : Nat} {input rest : Bytes} (hopen : skipTrivia input = byte '[' :: rest) :
      Makes ⟨.value, depth, input⟩ ⟨.items, depth + 1, rest⟩
  | item {depth : Nat} {input : Bytes} (hmore : ∀ r, skipTrivia input ≠ byte ']' :: r) :
      Makes ⟨.items, depth, input⟩ ⟨.value, depth, skipTrivia input⟩
  | nextItem {depth fuel : Nat} {input after : Bytes}
      (hmore : ∀ r, skipTrivia input ≠ byte ']' :: r)
      (hitem : value fuel depth (skipTrivia input) = .ok after) :
      Makes ⟨.items, depth, input⟩ ⟨.items, depth, after⟩
  | entry {depth : Nat} {input key named : Bytes}
      (hname : name (skipTrivia input) = .ok (key, named)) :
      Makes ⟨.entries, depth, input⟩ ⟨.value, depth, skipTrivia named⟩
  | nextEntry {depth fuel : Nat} {input key named after : Bytes}
      (hname : name (skipTrivia input) = .ok (key, named))
      (hvalue : value fuel depth (skipTrivia named) = .ok after) :
      Makes ⟨.entries, depth, input⟩ ⟨.entries, depth, after⟩

/-- The calls that `PdfDictionary::parse` makes of some bytes. -/
def Call.Reached (d : Bytes) (c : Call) : Prop :=
  ∃ rest, skipTrivia d = byte '<' :: byte '<' :: rest ∧
    Relation.ReflTransGen Call.Makes ⟨.entries, 1, rest⟩ c

/-- The call returns, and is no deeper than the parser lets it be. -/
def Call.Returns (c : Call) : Prop :=
  c.depth ≤ maxPdfValueDepth ∧ ∃ members after, Reads c.part c.depth c.input members after

/-- A value that opens with `<<` is read as a dictionary. -/
theorem Reads.inner_entries {depth : Nat} {input rest after : Bytes} {members : List Member}
    (h : Reads .value depth input members after)
    (hopen : skipTrivia input = byte '<' :: byte '<' :: rest) :
    depth + 1 ≤ maxPdfValueDepth ∧ ∃ ms, Reads .entries (depth + 1) rest ms after := by
  cases h with
  | dictionary hopen' hdepth hinner =>
    rw [hopen] at hopen'
    obtain rfl := (List.cons.inj (List.cons.inj hopen').2).2
    exact ⟨hdepth, _, hinner⟩
  | array hopen' =>
    rw [hopen] at hopen'
    exact absurd (List.cons.inj hopen').1 (by decide)
  | literal hopen' =>
    rw [hopen] at hopen'
    exact absurd (List.cons.inj hopen').1 (by decide)
  | hex hopen' hsingle =>
    rw [hopen] at hopen'
    rw [← (List.cons.inj hopen').2] at hsingle
    exact absurd rfl hsingle
  | name hopen' =>
    rw [hopen] at hopen'
    exact absurd (List.cons.inj hopen').1 (by decide)
  | atom hatom =>
    obtain ⟨-, -, b, r, heq, hb⟩ := atom_eq_ok hatom
    rw [hopen] at heq
    rw [← (List.cons.inj heq).1] at hb
    exact absurd hb (by decide)

/-- A value that opens with `[` is read as an array. -/
theorem Reads.inner_items {depth : Nat} {input rest after : Bytes} {members : List Member}
    (h : Reads .value depth input members after) (hopen : skipTrivia input = byte '[' :: rest) :
    depth + 1 ≤ maxPdfValueDepth ∧ ∃ ms, Reads .items (depth + 1) rest ms after := by
  cases h with
  | dictionary hopen' =>
    rw [hopen] at hopen'
    exact absurd (List.cons.inj hopen').1 (by decide)
  | array hopen' hdepth hinner =>
    rw [hopen] at hopen'
    obtain rfl := (List.cons.inj hopen').2
    exact ⟨hdepth, _, hinner⟩
  | literal hopen' =>
    rw [hopen] at hopen'
    exact absurd (List.cons.inj hopen').1 (by decide)
  | hex hopen' =>
    rw [hopen] at hopen'
    exact absurd (List.cons.inj hopen').1 (by decide)
  | name hopen' =>
    rw [hopen] at hopen'
    exact absurd (List.cons.inj hopen').1 (by decide)
  | atom hatom =>
    obtain ⟨-, -, b, r, heq, hb⟩ := atom_eq_ok hatom
    rw [hopen] at heq
    rw [← (List.cons.inj heq).1] at hb
    exact absurd hb (by decide)

/-- **One call**: what a call that returns makes returns too. -/
theorem Call.Makes.returns {c c' : Call} (hmakes : c.Makes c') (h : c.Returns) : c'.Returns := by
  obtain ⟨hdepth, members, after, hreads⟩ := h
  cases hmakes with
  | dictionary hopen =>
    obtain ⟨hinner, ms, hentries⟩ := hreads.inner_entries hopen
    exact ⟨hinner, ms, after, hentries⟩
  | array hopen =>
    obtain ⟨hinner, ms, hitems⟩ := hreads.inner_items hopen
    exact ⟨hinner, ms, after, hitems⟩
  | item hmore =>
    cases hreads with
    | itemsEnd hclose => exact absurd hclose (hmore _)
    | item hitem => exact ⟨hdepth, _, _, hitem⟩
  | nextItem hmore hvalue =>
    cases hreads with
    | itemsEnd hclose => exact absurd hclose (hmore _)
    | item hitem hitems =>
      obtain rfl := hitem.after_unique ((reads_of_parses _).1 hvalue)
      exact ⟨hdepth, _, _, hitems⟩
  | entry hname =>
    cases hreads with
    | entriesEnd hclose =>
      obtain ⟨r, hslash, -⟩ := name_eq_ok hname
      rw [hclose] at hslash
      exact absurd (List.cons.inj hslash).1 (by decide)
    | entry hname' hvalue =>
      rw [hname] at hname'
      obtain ⟨-, rfl⟩ := Prod.mk.inj (Except.ok.inj hname')
      exact ⟨hdepth, _, _, hvalue⟩
  | nextEntry hname hvalue =>
    cases hreads with
    | entriesEnd hclose =>
      obtain ⟨r, hslash, -⟩ := name_eq_ok hname
      rw [hclose] at hslash
      exact absurd (List.cons.inj hslash).1 (by decide)
    | entry hname' hvalue' hentries =>
      rw [hname] at hname'
      obtain ⟨-, rfl⟩ := Prod.mk.inj (Except.ok.inj hname')
      obtain rfl := hvalue'.after_unique ((reads_of_parses _).1 hvalue)
      exact ⟨hdepth, _, _, hentries⟩

/-- **Every call** made for an accepted dictionary is at most 64 deep. -/
theorem Call.reached_depth {d : Bytes} {D : PdfDictionary} (h : PdfDictionary.parse d = .ok D)
    {c : Call} (hreached : Call.Reached d c) : c.depth ≤ maxPdfValueDepth := by
  obtain ⟨rest, members, after, hskip, hreads, -, -⟩ := parse_iff.mp h
  obtain ⟨rest', hskip', hcalls⟩ := hreached
  rw [hskip] at hskip'
  obtain rfl : rest = rest' := by simpa using hskip'
  have hreturns : c.Returns := by
    induction hcalls with
    | refl => exact ⟨show 1 ≤ maxPdfValueDepth by decide, members, after, hreads⟩
    | tail _ hmakes ih => exact hmakes.returns ih
  exact hreturns.1

/-! ## §6. Both scanners -/

/-- **The values of the entries** stand before the closing `>>`, one behind the other. -/
theorem entries_spans {d : Bytes} {D : PdfDictionary} (h : PdfDictionary.parse d = .ok D) :
    D.closing + 2 ≤ d.length ∧
    (∀ e ∈ D.entries, e.value.start < e.value.stop ∧ e.value.stop ≤ D.closing) ∧
    D.entries.Pairwise fun e e' => e.value.stop ≤ e'.value.start := by
  obtain ⟨rest, members, after, hopen, hreads, -, rfl⟩ := parse_iff.mp h
  have hinput : rest.length + 2 ≤ d.length := by
    have hle := (skipTrivia_suffix d).length_le
    rw [hopen] at hle
    exact hle
  have hclose := (hreads.entries_close rfl).length_le
  simp only [List.length_cons] at hclose
  refine ⟨?_, ?_, ?_⟩
  · show d.length - (after.length + 2) + 2 ≤ d.length
    omega
  · intro e he
    obtain ⟨m, hm, rfl⟩ := List.mem_map.mp he
    obtain ⟨hstart, hbehind⟩ := hreads.members hm
    have hlast := (hreads.member_close rfl hm).length_le
    have hfirst := hstart.length_le
    have hshorter := hbehind.2
    simp only [List.length_cons] at hlast
    show d.length - m.start.length < d.length - m.after.length ∧
      d.length - m.after.length ≤ d.length - (after.length + 2)
    omega
  · rw [List.pairwise_map]
    refine hreads.in_order.imp fun hbehind => ?_
    have hlen := hbehind.length_le
    show d.length - _ ≤ d.length - _
    omega

/-- **The two scanners.**  Of an accepted dictionary that begins with `<<`, wherever it stands and
    whatever follows it, `dictionary_at` returns what there is up to the closing `>>`, and the
    offset behind it: where the dictionary ends in `>>`, all of it, unless a comment stands behind
    the closing one.  The values of the entries stand inside, in order and apart, and no call of
    the parser is deeper than 64. -/
theorem scanners_agree {d : Bytes} {D : PdfDictionary} (h : PdfDictionary.parse d = .ok D) :
    (ascii "<<" <+: d → ascii ">>" <:+ d → ∀ front continuation,
      dictionaryAt (front ++ d ++ continuation) front.length =
          some (d.take (D.closing + 2), front.length + (D.closing + 2)) ∧
        (dictionaryAt (front ++ d ++ continuation) front.length =
            some (d, front.length + d.length) ∨
          byte '%' ∈ d.drop (D.closing + 2))) ∧
    (∀ e ∈ D.entries, e.value.start < e.value.stop ∧ e.value.stop ≤ d.length) ∧
    D.entries.Pairwise (fun e e' => e.value.stop ≤ e'.value.start) ∧
    ∀ c, Call.Reached d c → c.depth ≤ maxPdfValueDepth := by
  obtain ⟨hclosing, hinside, horder⟩ := entries_spans h
  refine ⟨?_, ?_, horder, fun c hreached => Call.reached_depth h hreached⟩
  · intro hopen hend front continuation
    have hat := dictionaryAt_closing h hopen front continuation
    refine ⟨hat, ?_⟩
    obtain hlast | hcomment := closing_last_or_comment h hopen hend
    · left
      rw [hat, hlast, List.take_length]
    · exact .inr hcomment
  · intro e he
    obtain ⟨hnonempty, hstop⟩ := hinside e he
    exact ⟨hnonempty, by omega⟩

/-- A dictionary with brackets in strings and in a comment. -/
def bracketed : Bytes := ascii "<</A<</B(\\)>>(>>))/C<3E>>>%>>\n/D[1 0 R]>>"

/-- It is cut out of a document whole. -/
theorem bracketed_scanned :
    dictionaryAt (ascii "7 0 obj\n" ++ bracketed ++ ascii " endobj") 8 = some (bracketed, 49) := by
  have hparse : PdfDictionary.parse bracketed =
      .ok ⟨[⟨ascii "A", ⟨4, 26⟩⟩, ⟨ascii "D", ⟨32, 39⟩⟩], 39⟩ := by decide +kernel
  have hat := (scanners_agree hparse).1 (by decide) (by decide) (ascii "7 0 obj\n") (ascii " endobj")
  have hwhole : bracketed.take (39 + 2) = bracketed := by decide +kernel
  rw [hwhole] at hat
  exact hat.1

/-- A comment behind the closing `>>` may end in `>>` too: the parser reads over it, and
    `dictionary_at` stops before it. -/
theorem commentBehind_cut : ¬ ∀ d D continuation, PdfDictionary.parse d = .ok D →
    ascii "<<" <+: d → ascii ">>" <:+ d →
    dictionaryAt (d ++ continuation) 0 = some (d, d.length) := by
  intro hall
  have hwhole := hall (ascii "<<>>%>>") ⟨[], 2⟩ [] (by decide +kernel) (by decide) (by decide)
  have hcut : dictionaryAt (ascii "<<>>%>>" ++ []) 0 = some (ascii "<<>>", 4) := by decide +kernel
  rw [hcut] at hwhole
  exact absurd hwhole (by decide)

end Pdf

end RefineId
