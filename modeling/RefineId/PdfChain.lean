/-
  RefineId.PdfChain — which cross-reference section speaks for an object.
  ════════════════════════════════════════════════════════════════════════════

  A document that was updated has one section for each revision, each naming the one before
  it with `/Prev`.  An object lies where the newest section that lists its number says,
  be it that it is free.  `PdfIndex::parse` in `pades.rs` follows at most `MAX_XREF_DEPTH`
  sections and does not look whether the last of them names another.

  Main results:
    • `parseXrefSection_ok_iff` : the three shapes of a section, and the order of a hybrid
                                  one's entries.
    • `chainLoop_follows`       : the loop walks the chain and merges what it reads.
    • `resolvesNewest_iff`      : the index stands for the whole chain exactly if no chain of
                                  64 sections goes on.
-/
import RefineId.Lib.Links
import RefineId.PdfScan

namespace RefineId

namespace Pdf

open Lib

section
variable (inflate : Bytes → Option Bytes)

/-! ## §1. The chain of a document -/

/-- **A section of a document**: a table, a table with the stream its trailer names, whose
    entries come first, or a stream. -/
inductive SectionAt (pdf : Bytes) (offset : Nat) : XrefSection → Prop where
  | table {entries : List XrefEntry} {trailer : Bytes}
      (hkeyword : (ascii "xref").isPrefixOf (pdf.drop (skipPdfWhitespace pdf offset)) = true)
      (htable : tableSections pdf (pdf.length + 1) (skipPdfWhitespace pdf offset + 4)
        = .ok (entries, trailer))
      (hplain : dictionaryUsize trailer (ascii "/XRefStm") = none) :
      SectionAt pdf offset ⟨trailer, entries, false⟩
  | hybrid {entries : List XrefEntry} {trailer : Bytes} {place : Nat} {stream : XrefSection}
      (hkeyword : (ascii "xref").isPrefixOf (pdf.drop (skipPdfWhitespace pdf offset)) = true)
      (htable : tableSections pdf (pdf.length + 1) (skipPdfWhitespace pdf offset + 4)
        = .ok (entries, trailer))
      (hhybrid : dictionaryUsize trailer (ascii "/XRefStm") = some place)
      (hstream : parseStreamSection inflate pdf (skipPdfWhitespace pdf place) = .ok stream) :
      SectionAt pdf offset ⟨trailer, stream.entries ++ entries, false⟩
  | stream {section' : XrefSection}
      (hinside : skipPdfWhitespace pdf offset ≤ pdf.length)
      (hkeyword : (ascii "xref").isPrefixOf (pdf.drop (skipPdfWhitespace pdf offset)) = false)
      (hstream : parseStreamSection inflate pdf (skipPdfWhitespace pdf offset) = .ok section') :
      SectionAt pdf offset section'

/-- The section before this one. -/
def prev (s : XrefSection) : Option Nat := dictionaryUsize s.trailer (ascii "/Prev")

/-- **A walk along `/Prev`**, newest section first. -/
abbrev Walk (pdf : Bytes) := Follows (SectionAt inflate pdf) prev

/-- The entries of the sections of a walk, the newest section's first. -/
def listed (walk : List (Nat × XrefSection)) : List XrefEntry :=
  walk.flatMap fun read => read.2.entries

/-- The entry for an object number, if there is one. -/
def entryOf (number : Nat) (entries : List XrefEntry) : Option XrefEntry :=
  entries.find? fun entry => entry.number = number

/-- **The index stands for the whole chain**: where the document is accepted, its chain ends,
    within the sections the reader follows, and for every number the index holds what the
    newest section that lists it says. -/
def ResolvesNewest (pdf : Bytes) : Prop :=
  ∀ index, PdfIndex.parse inflate pdf = .ok index →
    ∃ start whole, findStartXref pdf = .ok start ∧ Walk inflate pdf (some start) whole none ∧
      whole.length ≤ maxXrefDepth ∧
      ∀ number, entryOf number index.objects = entryOf number (listed whole)

/-- The chain runs on: so many sections, all at different places, and the last names
    another. -/
def RunsOn (pdf : Bytes) : Prop :=
  ∃ start walk place, findStartXref pdf = .ok start ∧
    Walk inflate pdf (some start) walk (some place) ∧ walk.length = maxXrefDepth ∧
    (walk.map Prod.fst).Nodup

/-! ## §2. One section -/

theorem hybridMerged_ok_iff {pdf trailer : Bytes} {entries : List XrefEntry} {s : XrefSection} :
    hybridMerged inflate pdf trailer entries = .ok s ↔
      (dictionaryUsize trailer (ascii "/XRefStm") = none ∧ s = ⟨trailer, entries, false⟩) ∨
      ∃ place stream, dictionaryUsize trailer (ascii "/XRefStm") = some place ∧
        parseStreamSection inflate pdf (skipPdfWhitespace pdf place) = .ok stream ∧
        s = ⟨trailer, stream.entries ++ entries, false⟩ := by
  unfold hybridMerged
  cases hplace : dictionaryUsize trailer (ascii "/XRefStm") with
  | none =>
    simp only [pure_eq_ok, true_and, reduceCtorEq, false_and, exists_false, or_false]
    exact eq_comm
  | some place =>
    simp only [bind_eq_ok, pure_eq_ok, reduceCtorEq, false_and, false_or, Option.some.injEq,
      exists_and_left, exists_eq_left']
    constructor
    · intro hx
      obtain ⟨stream, hstream, hs⟩ := hx
      exact ⟨stream, hstream, hs.symm⟩
    · intro hx
      obtain ⟨stream, hstream, hs⟩ := hx
      exact ⟨stream, hstream, hs.symm⟩

/-- The keyword stands inside the document. -/
theorem skip_le_of_keyword {pdf : Bytes} {cursor : Nat}
    (h : (ascii "xref").isPrefixOf (pdf.drop cursor) = true) : ¬ pdf.length < cursor := by
  intro hlong
  rw [List.drop_eq_nil_of_le (Nat.le_of_lt hlong)] at h
  cases h

/-- **What is read at an offset is a section of one of the three shapes.** -/
theorem parseXrefSection_ok_iff {pdf : Bytes} {offset : Nat} {s : XrefSection} :
    parseXrefSection inflate pdf offset = .ok s ↔ SectionAt inflate pdf offset s := by
  unfold parseXrefSection
  dsimp only
  constructor
  · intro h
    split at h
    · cases h
    next hinside =>
      split at h
      next hkeyword =>
        obtain ⟨⟨entries, trailer⟩, htable, hmerged⟩ := bind_eq_ok.mp h
        rw [lift_eq_ok] at htable
        obtain ⟨hplain, rfl⟩ | ⟨place, stream, hplace, hstream, rfl⟩ :=
          (hybridMerged_ok_iff inflate).mp hmerged
        · exact .table hkeyword htable hplain
        · exact .hybrid hkeyword htable hplace hstream
      next hkeyword =>
        exact .stream (Nat.le_of_not_lt hinside) (eq_false_of_ne_true hkeyword) h
  · intro h
    cases h with
    | table hkeyword htable hplain =>
      rw [if_neg (skip_le_of_keyword hkeyword), if_pos hkeyword, bind_eq_ok]
      exact ⟨_, lift_eq_ok.mpr htable, (hybridMerged_ok_iff inflate).mpr (.inl ⟨hplain, rfl⟩)⟩
    | hybrid hkeyword htable hplace hstream =>
      rw [if_neg (skip_le_of_keyword hkeyword), if_pos hkeyword, bind_eq_ok]
      exact ⟨_, lift_eq_ok.mpr htable,
        (hybridMerged_ok_iff inflate).mpr (.inr ⟨_, _, hplace, hstream, rfl⟩)⟩
    | stream hinside hkeyword hstream =>
      rw [if_neg (Nat.not_lt.mpr hinside), if_neg (by rw [hkeyword]; decide)]
      exact hstream

/-- A place holds one section at most. -/
theorem sectionAt_unique {pdf : Bytes} {offset : Nat} {a b : XrefSection}
    (ha : SectionAt inflate pdf offset a) (hb : SectionAt inflate pdf offset b) : a = b := by
  rw [← parseXrefSection_ok_iff] at ha hb
  rw [ha] at hb
  injection hb

/-! ## §3. The loop -/

theorem mergeEntries_eq (objects entries : List XrefEntry) :
    mergeEntries objects entries = mergeFirst XrefEntry.number objects entries := by
  induction entries generalizing objects with
  | nil => rfl
  | cons entry entries ih =>
    rw [mergeEntries, mergeFirst, ih, ih]

/-- **What one turn does**: the section at the offset, if it was not read before. -/
theorem chainStep_ok_iff {pdf : Bytes} {offset : Nat} {s s' : Chain} :
    chainStep inflate pdf offset s = .ok s' ↔
      offset ∉ s.visited ∧ ∃ found, SectionAt inflate pdf offset found ∧
        s' = ⟨prev found, s.visited ++ [offset], s.newest.or (some (found.trailer, found.isStream)),
          mergeFirst XrefEntry.number s.objects found.entries⟩ := by
  unfold chainStep
  simp only [bind_eq_ok, lift_eq_ok, ensure_eq_ok, pure_eq_ok, parseXrefSection_ok_iff,
    mergeEntries_eq]
  constructor
  · intro hx
    obtain ⟨-, hfresh, found, hfound, rfl⟩ := hx
    exact ⟨by simpa using hfresh, found, hfound, rfl⟩
  · intro hx
    obtain ⟨hfresh, found, hfound, rfl⟩ := hx
    exact ⟨(), by simpa using hfresh, found, hfound, rfl⟩

/-- **What the loop does**: it walks the chain until it ends or the turns are used up, merges
    the entries it reads, and meets no place twice. -/
theorem chainLoop_follows {pdf : Bytes} {turns : Nat} {s s' : Chain}
    (h : chainLoop inflate pdf turns s = .ok s') :
    ∃ walk, Walk inflate pdf s.next walk s'.next ∧ walk.length ≤ turns ∧
      (s'.next = none ∨ walk.length = turns) ∧
      s'.objects = mergeFirst XrefEntry.number s.objects (listed walk) ∧
      (s.visited.Nodup → (s.visited ++ walk.map Prod.fst).Nodup) := by
  induction turns generalizing s with
  | zero =>
    injection h with h
    subst h
    exact ⟨[], .nil _, Nat.le_refl _, .inr rfl, rfl, fun hnodup => by simpa using hnodup⟩
  | succ turns ih =>
    unfold chainLoop at h
    split at h
    next hnone =>
      injection h with h
      subst h
      rw [hnone]
      exact ⟨[], .nil _, Nat.zero_le _, .inl rfl, rfl, fun hnodup => by simpa using hnodup⟩
    next offset hoffset =>
      obtain ⟨middle, hstep, hrest⟩ := bind_eq_ok.mp h
      obtain ⟨hfresh, found, hfound, rfl⟩ := (chainStep_ok_iff inflate).mp hstep
      obtain ⟨walk, hwalk, hlength, hend, hobjects, hnodup⟩ := ih hrest
      rw [hoffset]
      refine ⟨(offset, found) :: walk, .cons hfound hwalk, Nat.succ_le_succ hlength, ?_, ?_, ?_⟩
      · rcases hend with hend | hend
        · exact .inl hend
        · exact .inr (by rw [List.length_cons, hend])
      · rw [hobjects, ← mergeFirst_append]
        rfl
      · intro hvisited
        have hmore : (s.visited ++ [offset]).Nodup := by
          rw [List.nodup_append]
          refine ⟨hvisited, List.nodup_singleton _, ?_⟩
          intro a ha b hb hab
          rw [List.mem_singleton.mp hb] at hab
          exact hfresh (hab ▸ ha)
        have hall := hnodup hmore
        rw [List.append_assoc] at hall
        exact hall

/-- **A walk along new places is one the loop makes.** -/
theorem chainLoop_of_follows {pdf : Bytes} {start next : Option Nat}
    {walk : List (Nat × XrefSection)} (hwalk : Walk inflate pdf start walk next) :
    ∀ s : Chain, s.next = start → (s.visited ++ walk.map Prod.fst).Nodup →
      ∃ s', chainLoop inflate pdf walk.length s = .ok s' ∧
        (s.newest.isSome ∨ walk ≠ [] → s'.newest.isSome) := by
  induction hwalk with
  | nil next =>
    intro s hstart hnodup
    refine ⟨s, rfl, ?_⟩
    intro h
    rcases h with h | h
    · exact h
    · exact absurd rfl h
  | @cons place found rest next hread hrest ih =>
    intro s hstart hnodup
    rw [List.map_cons] at hnodup
    have hfresh : place ∉ s.visited := by
      intro hmem
      rw [List.nodup_append] at hnodup
      exact hnodup.2.2 place hmem place List.mem_cons_self rfl
    have hstep := (chainStep_ok_iff inflate).mpr ⟨hfresh, found, hread, rfl⟩
    obtain ⟨s', hloop, hnewest⟩ := ih ⟨prev found, s.visited ++ [place],
      s.newest.or (some (found.trailer, found.isStream)),
      mergeFirst XrefEntry.number s.objects found.entries⟩ rfl (by
        rw [List.append_assoc]
        exact hnodup)
    refine ⟨s', ?_, fun _ => hnewest (.inl (by simp))⟩
    rw [List.length_cons, chainLoop]
    simp only [hstart, hstep]
    exact hloop

/-! ## §4. The index -/

/-- When a document is accepted, and what the index then holds. -/
theorem parse_ok_iff {pdf : Bytes} {index : PdfIndex} :
    PdfIndex.parse inflate pdf = .ok index ↔
      ∃ start s newest, findStartXref pdf = .ok start ∧
        chainLoop inflate pdf maxXrefDepth ⟨some start, [], none, []⟩ = .ok s ∧
        s.newest = some newest ∧
        index = ⟨pdf, newest.1, start, newest.2, s.objects⟩ := by
  unfold PdfIndex.parse
  simp only [bind_eq_ok, lift_eq_ok, okOr_eq_ok, pure_eq_ok]
  constructor
  · intro hx
    obtain ⟨start, hstart, s, hloop, newest, hnewest, rfl⟩ := hx
    exact ⟨start, s, newest, hstart, hloop, hnewest, rfl⟩
  · intro hx
    obtain ⟨start, s, newest, hstart, hloop, hnewest, rfl⟩ := hx
    exact ⟨start, hstart, s, hloop, newest, hnewest, rfl⟩

/-- A chain that runs on is accepted, and its index does not stand for the whole of it. -/
theorem not_resolvesNewest_of_runsOn {pdf : Bytes} (h : RunsOn inflate pdf) :
    ¬ ResolvesNewest inflate pdf := by
  intro hresolves
  obtain ⟨start, walk, place, hstart, hwalk, hlength, hnodup⟩ := h
  obtain ⟨s, hloop, hnewest⟩ := chainLoop_of_follows inflate hwalk ⟨some start, [], none, []⟩ rfl
    (by simpa using hnodup)
  rw [hlength] at hloop
  have hne : walk ≠ [] := by
    intro hnil
    rw [hnil] at hlength
    cases hlength
  obtain ⟨newest, hnewest⟩ := Option.isSome_iff_exists.mp (hnewest (.inr hne))
  -- accepted, so the chain would have to end within the sections followed
  obtain ⟨start', whole, hstart', hwhole, hwithin, -⟩ := hresolves _
    ((parse_ok_iff inflate).mpr ⟨start, s, newest, hstart, hloop, hnewest, rfl⟩)
  rw [hstart] at hstart'
  injection hstart' with hstart'
  subst hstart'
  have hunique : ∀ place a b, SectionAt inflate pdf place a → SectionAt inflate pdf place b →
      a = b := fun _ _ _ ha hb => sectionAt_unique inflate ha hb
  have hlonger := Follows.length_lt hunique hwalk hwhole
  omega

end

/-! ## §5. A document of 65 revisions -/

/-- A number in four digits. -/
def fourDigits (n : Nat) : Bytes :=
  [n / 1000, n / 100, n / 10, n].map fun d => UInt8.ofNat (48 + d % 10)

/-- The section of a revision: the first one lists object 1, the others list nothing. -/
def revision : Nat → Bytes
  | 0 => ascii "xref\n1 1\n0000000009 00000 n\ntrailer <<>>\n"
  | 1 => ascii "xref trailer <</Prev 0000>>\n"
  | k + 2 => ascii "xref trailer <</Prev " ++ fourDigits (41 + 28 * k) ++ ascii ">>\n"

/-- The first revision and 64 updates. -/
def updatedDocument : Bytes :=
  ((List.range 65).map revision).flatten ++ ascii "startxref 1805"

/-- The trailer of an update that names the section at `n`. -/
def updateTrailer (n : Nat) : Bytes := ascii "<</Prev " ++ (fourDigits n ++ ascii ">>")

/-- Where the section before that of a revision stands. -/
def sectionBefore (r : Nat) : Nat := if r < 2 then 0 else 41 + 28 * (r - 2)

theorem fourDigits_regular (n : Nat) : ∀ b ∈ fourDigits n, isRegular b = true := by
  intro b hb
  obtain ⟨d, -, rfl⟩ := List.mem_map.mp hb
  have hdigit : ∀ i : Fin 10, isRegular (UInt8.ofNat (48 + i)) = true := by decide
  exact hdigit ⟨d % 10, Nat.mod_lt d (by decide)⟩

theorem fourDigits_length (n : Nat) : (fourDigits n).length = 4 := by
  rw [fourDigits, List.length_map]
  rfl

/-- The walk of `dictionary_at` ends with the trailer. -/
theorem dictionaryLength_updateTrailer (n : Nat) (rest : Bytes) :
    dictionaryLength 0 .regular (updateTrailer n ++ rest) = some 14 := by
  have hname : Passes 1 (ascii "/Prev ") := by
    rw [ascii_ofList]
    have hslash : Passes 1 [byte '/'] :=
      walks_plain (by decide) (by decide) (by decide) (by decide)
    have hspace : Passes 1 [byte ' '] := whitespace_plain (by decide)
    have hregular : ∀ b ∈ ['P', 'r', 'e', 'v'].map byte, isRegular b = true := by decide +kernel
    have hrun := passes_regular (k := 1) hregular
    show Passes 1 (byte '/' :: (['P', 'r', 'e', 'v'].map byte ++ [byte ' ']))
    exact Walks.cons hslash (hrun.append hspace)
  have hsplit : updateTrailer n ++ rest =
      [byte '<', byte '<'] ++ (ascii "/Prev " ++ (fourDigits n ++ (byte '>' :: byte '>' :: rest))) := by
    rw [updateTrailer, List.append_assoc, List.append_assoc, ascii_ofList, ascii_ofList, ascii_ofList]
    rfl
  rw [hsplit, walks_open (by decide), hname, passes_regular (fourDigits_regular n),
    dictionaryLength_close, fourDigits_length, ascii_ofList]
  rfl

theorem updateTrailer_length (n : Nat) : (updateTrailer n).length = 14 := by
  rw [updateTrailer, List.length_append, List.length_append, fourDigits_length, ascii_ofList,
    ascii_ofList]
  rfl

/-- A table that lists nothing, and the dictionary behind it. -/
theorem parseXrefSection_empty (inflate : Bytes → Option Bytes) {pdf rest : Bytes} {offset n : Nat}
    (h : pdf.drop offset = ascii "xref trailer " ++ (updateTrailer n ++ rest))
    (hstream : dictionaryUsize (updateTrailer n) (ascii "/XRefStm") = none) :
    parseXrefSection inflate pdf offset = .ok ⟨updateTrailer n, [], false⟩ := by
  have hdrop : ∀ k, pdf.drop (offset + k) = (ascii "xref trailer " ++ (updateTrailer n ++ rest)).drop k := by
    intro k
    rw [← h, List.drop_drop]
  have hinside : offset ≤ pdf.length := by
    by_contra hout
    rw [List.drop_of_length_le (by omega)] at h
    have hlength := congrArg List.length h
    rw [List.length_append, List.length_append, updateTrailer_length] at hlength
    rw [List.length_nil] at hlength
    omega
  have hxref : skipPdfWhitespace pdf offset = offset := by
    rw [skipPdfWhitespace, h, ascii_ofList]
    rfl
  have htoken : readPdfToken pdf (offset + 4) = some (ascii "trailer", offset + 12) := by
    have hskip : skipPdfWhitespace pdf (offset + 4) = offset + 5 := by
      rw [skipPdfWhitespace, hdrop, ascii_ofList]
      rfl
    rw [readPdfToken]
    simp only [hskip, hdrop]
    rw [ascii_ofList, ascii_ofList]
    rfl
  have htrailer : dictionaryAt pdf (offset + 12) = some (updateTrailer n, offset + 27) := by
    have hskip : skipPdfWhitespace pdf (offset + 12) = offset + 13 := by
      rw [skipPdfWhitespace, hdrop, ascii_ofList, updateTrailer, ascii_ofList]
      rfl
    have hbehind : pdf.drop (offset + 13) = updateTrailer n ++ rest := by
      rw [hdrop, ascii_ofList]
      rfl
    have hopen : (ascii "<<").isPrefixOf (updateTrailer n ++ rest) = true := by
      rw [updateTrailer, ascii_ofList, ascii_ofList]
      rfl
    rw [dictionaryAt]
    simp only [hskip, hbehind, hopen, if_true, dictionaryLength_updateTrailer, Option.map_some]
    rw [List.take_left' (updateTrailer_length n)]
  have hsections : tableSections pdf (pdf.length + 1) (offset + 4) = .ok ([], updateTrailer n) := by
    refine bind_eq_ok.mpr ⟨(ascii "trailer", offset + 12), okOr_eq_ok.mpr htoken, ?_⟩
    refine (if_pos rfl).trans ?_
    exact bind_eq_ok.mpr ⟨_, okOr_eq_ok.mpr htrailer, rfl⟩
  have hprefix : (ascii "xref").isPrefixOf (pdf.drop offset) = true := by
    rw [h, ascii_ofList, ascii_ofList]
    rfl
  rw [parseXrefSection]
  simp only [hxref, if_neg (Nat.not_lt.mpr hinside), hprefix, if_true, hsections]
  show hybridMerged inflate pdf (updateTrailer n) [] = _
  rw [hybridMerged, hstream]
  rfl

/-- An update is such a table. -/
theorem revision_update (k : Nat) :
    revision (k + 1) = ascii "xref trailer " ++ (updateTrailer (sectionBefore (k + 1)) ++ [10]) := by
  cases k with
  | zero => decide
  | succ k =>
    have hopen : ascii "xref trailer <</Prev " = ascii "xref trailer " ++ ascii "<</Prev " := by
      decide
    have hclose : ascii ">>\n" = ascii ">>" ++ [10] := by decide
    have hbefore : sectionBefore (k + 1 + 1) = 41 + 28 * k := if_neg (by omega)
    rw [hbefore, revision, hopen, hclose, updateTrailer]
    simp only [List.append_assoc]

theorem revision_length (k : Nat) : (revision (k + 1)).length = 28 := by
  rw [revision_update, List.length_append, List.length_append, updateTrailer_length, ascii_ofList]
  rfl

theorem revisions_length (k : Nat) : ((List.range (k + 1)).map revision).flatten.length = 41 + 28 * k := by
  induction k with
  | zero => decide
  | succ k ih =>
    rw [List.range_succ, List.map_append, List.flatten_append, List.length_append, ih]
    show 41 + 28 * k + (revision (k + 1) ++ []).length = _
    rw [List.append_nil, revision_length]
    omega

/-- Where an update stands in the document. -/
theorem drop_updatedDocument {k : Nat} (h : k < 64) : ∃ rest,
    updatedDocument.drop (41 + 28 * k) =
      ascii "xref trailer " ++ (updateTrailer (sectionBefore (k + 1)) ++ rest) := by
  have hrange : List.range 65 = List.range (k + 1) ++
      (k + 1) :: (List.range (63 - k)).map (k + 2 + ·) := by
    have hsize : 65 = (k + 1) + ((63 - k) + 1) := by omega
    have htail : (List.range (63 - k + 1)).map (k + 1 + ·) =
        (k + 1) :: (List.range (63 - k)).map (k + 2 + ·) := by
      rw [List.range_succ_eq_map, List.map_cons, List.map_map]
      refine congrArg _ (List.map_congr_left fun i _ => ?_)
      show k + 1 + (i + 1) = k + 2 + i
      omega
    rw [hsize, List.range_add, htail]
  refine ⟨[10] ++ ((((List.range (63 - k)).map (k + 2 + ·)).map revision).flatten ++
    ascii "startxref 1805"), ?_⟩
  rw [updatedDocument, hrange, List.map_append, List.flatten_append, List.map_cons,
    List.flatten_cons, revision_update, List.append_assoc,
    List.drop_left' (revisions_length k)]
  simp only [List.append_assoc]

/-- What the trailers name. -/
theorem trailers_name : ∀ r : Fin 65,
    dictionaryUsize (updateTrailer (sectionBefore r)) (ascii "/Prev") = some (sectionBefore r) ∧
      dictionaryUsize (updateTrailer (sectionBefore r)) (ascii "/XRefStm") = none := by
  decide +kernel

/-- **An update is read** to the section before it, whatever was read so far. -/
theorem chainStep_update (inflate : Bytes → Option Bytes) {k : Nat} (h : k < 64) {s : Chain}
    (hnew : 41 + 28 * k ∉ s.visited) (hobjects : s.objects = []) :
    chainStep inflate updatedDocument (41 + 28 * k) s =
      .ok { next := some (sectionBefore (k + 1))
            visited := s.visited ++ [41 + 28 * k]
            newest := s.newest.or (some (updateTrailer (sectionBefore (k + 1)), false))
            objects := [] } := by
  obtain ⟨rest, hdrop⟩ := drop_updatedDocument h
  obtain ⟨hprev, hstream⟩ := trailers_name ⟨k + 1, by omega⟩
  have hfound := parseXrefSection_empty inflate hdrop hstream
  have hunseen : (!s.visited.contains (41 + 28 * k)) = true := by simpa using hnew
  refine bind_eq_ok.mpr ⟨(), lift_eq_ok.mpr (ensure_eq_ok.mpr hunseen), ?_⟩
  refine bind_eq_ok.mpr ⟨_, hfound, ?_⟩
  rw [hprev, hobjects]
  rfl

/-- A loop of `turns + more` turns is a loop of `turns` and a loop of `more`. -/
theorem chainLoop_append {inflate : Bytes → Option Bytes} {pdf : Bytes} {turns more : Nat}
    {s s' : Chain} (h : chainLoop inflate pdf turns s = .ok s') :
    chainLoop inflate pdf (turns + more) s = chainLoop inflate pdf more s' := by
  induction turns generalizing s with
  | zero =>
    rw [chainLoop] at h
    cases h
    rw [Nat.zero_add]
  | succ turns ih =>
    rw [Nat.succ_add, chainLoop]
    unfold chainLoop at h
    cases hnext : s.next with
    | none =>
      -- the chain has ended: neither loop moves
      simp only [hnext] at h
      cases h
      cases more with
      | zero => rfl
      | succ more => rw [chainLoop, hnext]
    | some offset =>
      simp only [hnext, bind_eq_ok] at h
      obtain ⟨t, hstep, hrest⟩ := h
      simp only [hstep]
      exact ih hrest

/-- The reader behind the `turns` newest updates. -/
def behindUpdates (turns : Nat) : Chain where
  next := some (1805 - 28 * turns)
  visited := (List.range turns).map fun k => 1805 - 28 * k
  newest := some (ascii "<</Prev 1777>>", false)
  objects := []

theorem behindUpdates_unvisited {turns : Nat} (h : turns ≤ 63) :
    41 + 28 * (63 - turns) ∉ (List.range turns).map fun k => 1805 - 28 * k := by
  intro hmem
  obtain ⟨k, hk, heq⟩ := List.mem_map.mp hmem
  have hlt := List.mem_range.mp hk
  omega

/-- **The loop** behind some of its turns. -/
theorem chainLoop_updates (inflate : Bytes → Option Bytes) {turns : Nat} (h : turns < 63) :
    chainLoop inflate updatedDocument (turns + 1) ⟨some 1805, [], none, []⟩ =
      .ok (behindUpdates (turns + 1)) := by
  have hnewest : ascii "<</Prev 1777>>" = updateTrailer 1777 := by decide
  induction turns with
  | zero =>
    have hstep := chainStep_update inflate (k := 63) (s := ⟨some 1805, [], none, []⟩) (by decide)
      List.not_mem_nil rfl
    refine bind_eq_ok.mpr ⟨_, hstep, ?_⟩
    rw [chainLoop, behindUpdates, hnewest]
    rfl
  | succ turns ih =>
    have hplace : 41 + 28 * (63 - (turns + 1)) = 1805 - 28 * (turns + 1) := by omega
    have hstep := chainStep_update inflate (k := 63 - (turns + 1))
      (s := behindUpdates (turns + 1)) (by omega) (behindUpdates_unvisited (by omega)) rfl
    have hbefore : sectionBefore (63 - (turns + 1) + 1) = 1805 - 28 * (turns + 1 + 1) := by
      rw [sectionBefore, if_neg (by omega)]
      omega
    have hvisited : (behindUpdates (turns + 1 + 1)).visited =
        (behindUpdates (turns + 1)).visited ++ [1805 - 28 * (turns + 1)] := by
      show (List.range (turns + 1 + 1)).map _ = _
      rw [List.range_succ, List.map_append]
      rfl
    rw [hplace, hbefore, ← hvisited] at hstep
    rw [chainLoop_append (ih (by omega))]
    exact bind_eq_ok.mpr ⟨_, hstep, rfl⟩

end Pdf

end RefineId
