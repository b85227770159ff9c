/-
  RefineId.UriText — the printed URL as a normal form.
  ════════════════════════════════════════════════════════════════════════════

  `Display for Uri` of `crates/refineid-lib-core/src/text.rs` leaves out the scheme's own port and
  an empty query; `Uri::parse` fills both in again, lower-cases the host and drops the fragment.
  A printed URL is split where it was put together, since no component holds the octet that ends
  it.

  Main results:
    • `text_parts`          : where a printed URL is split.
    • `parse_text`          : a printed URL that is not too long is read back.
    • `text_injective`      : two URLs that print alike are the same.
    • `parsed_normal_form`  : both, for the URLs the parser returns.
-/
import RefineId.Uri

namespace RefineId

open Lib Pdf Document

namespace Uri

/-! ## §1. Components read back -/

/-- **A query holds no octet that ends it.** -/
theorem Query.mem_text (query : Query) {b : UInt8} (hb : b ∈ query.text) : b ≠ byte '#' := by
  have hkind := mem_of_firstErrorFrom query.checked b hb
  rintro rfl
  exact absurd hkind (by decide)

theorem Path.text_ne_nil (path : Path) : path.text ≠ [] := by
  intro hnil
  have hrooted := path.rooted
  rw [hnil] at hrooted
  cases hrooted

/-- **A path is read back.** -/
theorem Path.parse_text (path : Path) {raw : Bytes} (h : raw = path.text)
    (rooted : raw ≠ [] → raw.head? = some (byte '/')) : Path.parse raw rooted = .ok path := by
  subst h
  have hne := path.text_ne_nil
  obtain ⟨text, hchecked, hrooted⟩ := path
  unfold Path.parse
  split
  next e he =>
    rw [hchecked] at he
    cases he
  next =>
    rw [dif_neg hne]

/-- **A query is read back.** -/
theorem Query.parse_text (query : Query) : Query.parse query.text = .ok query := by
  obtain ⟨text, hchecked⟩ := query
  unfold Query.parse
  split
  next e he =>
    rw [hchecked] at he
    cases he
  next => rfl

/-! ## §2. Where a printed URL is split -/

/-- What is printed behind the authority. -/
def tail (u : Uri) : Bytes :=
  u.path.text ++ if u.query.text = [] then [] else ascii "?" ++ u.query.text

theorem text_eq (u : Uri) : u.text = u.scheme.text ++ ascii "://" ++ (u.authorityString ++ u.tail) := by
  rw [text, origin, List.append_assoc, tail]

theorem tail_rooted (u : Uri) : u.tail.head? = some (byte '/') := by
  rw [tail, List.head?_append, u.path.rooted]
  rfl

/-- Nothing printed behind the authority begins a fragment. -/
theorem withoutFragment_tail (u : Uri) : withoutFragment u.tail = u.tail := by
  unfold withoutFragment
  rw [List.takeWhile_eq_self_iff]
  intro b hb
  have hne : b ≠ byte '#' := by
    rw [tail] at hb
    obtain hb | hb := List.mem_append.mp hb
    · exact (u.path.mem_text hb).2
    · split at hb
      · cases hb
      · obtain hb | hb := List.mem_append.mp hb
        · obtain rfl := List.mem_singleton.mp hb
          decide
        · exact u.query.mem_text hb
  simpa using hne

/-- **The path ends at the mark of the query**, and the query is what stands behind it. -/
theorem tail_split (u : Uri) : pathRaw u.tail = u.path.text ∧ queryRaw u.tail = u.query.text := by
  have hpath : ∀ b ∈ u.path.text, decide (b ≠ byte '?') = true := fun b hb =>
    decide_eq_true (u.path.mem_text hb).1
  unfold pathRaw queryRaw
  rw [withoutFragment_tail, tail, List.takeWhile_append_of_pos hpath,
    List.dropWhile_append_of_pos hpath]
  by_cases hquery : u.query.text = []
  · rw [if_pos hquery, hquery]
    exact ⟨List.append_nil _, rfl⟩
  · rw [if_neg hquery]
    exact ⟨List.append_nil _, rfl⟩

/-- **Where a printed URL is split.** -/
theorem text_parts (u : Uri) : ∃ afterScheme, splitScheme u.text = .ok (u.scheme, afterScheme) ∧
    authority afterScheme = u.authorityString ∧
    pathRaw (afterAuthority afterScheme) = u.path.text ∧
    queryRaw (afterAuthority afterScheme) = u.query.text := by
  obtain ⟨hauthority, hafter⟩ :=
    authority_append (fun b hb => (authorityString_ne u hb).2) u.tail_rooted
  obtain ⟨hpath, hquery⟩ := u.tail_split
  refine ⟨u.authorityString ++ u.tail, ?_, hauthority, ?_, ?_⟩
  · rw [text_eq, splitScheme_text]
  · rw [hafter, hpath]
  · rw [hafter, hquery]

/-! ## §3. The normal form -/

/-- **A printed URL is read back**, unless it is too long. -/
theorem parse_text (u : Uri) (h : u.text.length ≤ maxUriLen) : parse u.text = .ok u := by
  obtain ⟨afterScheme, hscheme, hauthority, hpath, hquery⟩ := u.text_parts
  have huserinfo : (authority afterScheme).contains (byte '@') = false := by
    rw [hauthority, List.contains_eq_mem, decide_eq_false_iff_not]
    intro hmem
    exact (authorityString_ne u hmem).1 rfl
  have hport : splitPort u.scheme (authority afterScheme) = .ok (u.host.text, u.port) := by
    rw [hauthority, splitPort_authorityString]
  have hread := u.path.parse_text hpath (pathRaw_rooted afterScheme)
  unfold parse
  rw [if_neg (Nat.not_lt.mpr h)]
  simp only [hscheme, bind, Except.bind, pure, Except.pure, huserinfo, hport, Host.parse_text,
    hread, hquery, Query.parse_text, Except.mapError, Bool.false_eq_true, if_false]

/-- **Two URLs that print alike are the same**, however long they are. -/
theorem text_injective {u v : Uri} (h : u.text = v.text) : u = v := by
  obtain ⟨rest, hscheme, hauthority, hpath, hquery⟩ := u.text_parts
  obtain ⟨rest', hscheme', hauthority', hpath', hquery'⟩ := v.text_parts
  rw [h, hscheme'] at hscheme
  obtain ⟨hsame, rfl⟩ := Prod.mk.inj (Except.ok.inj hscheme)
  have hport := splitPort_authorityString u
  rw [← hauthority, hauthority', ← hsame, splitPort_authorityString] at hport
  obtain ⟨hhost, hnumber⟩ := Prod.mk.inj (Except.ok.inj hport)
  have hread := Host.parse_text u.host
  rw [← hhost, Host.parse_text] at hread
  have hpathRead := u.path.parse_text hpath (pathRaw_rooted rest')
  rw [v.path.parse_text hpath' (pathRaw_rooted rest')] at hpathRead
  have hqueryRead := Query.parse_text u.query
  rw [← hquery, hquery', Query.parse_text] at hqueryRead
  obtain ⟨scheme, host, port, path, query⟩ := u
  obtain ⟨scheme', host', port', path', query'⟩ := v
  cases hsame
  cases hnumber
  cases hread
  cases hpathRead
  cases hqueryRead
  rfl

/-- **The printed URL is a normal form**: for every accepted text it is read back as the same URL,
    unless it is too long, and of two accepted texts the URLs are equal exactly if they print
    alike. -/
theorem parsed_normal_form (input other : Bytes) :
    (∀ u, parse input = .ok u → u.text.length ≤ maxUriLen → parse u.text = .ok u) ∧
    ∀ u v, parse input = .ok u → parse other = .ok v → (u = v ↔ u.text = v.text) := by
  constructor
  · intro u _ hlength
    exact u.parse_text hlength
  · intro u v _ _
    constructor
    · intro hsame
      rw [hsame]
    · exact text_injective

/-- **Every part in another form**: capitals, a port of three digits, no path and a fragment. -/
theorem capitals_normal_form :
    ∃ u, parse (ascii "HTTP://A.example:080?x#f") = .ok u ∧
      u.text = ascii "http://a.example/?x" ∧ parse u.text = .ok u ∧ (u = u ↔ u.text = u.text) := by
  let u : Uri := ⟨.http, ⟨ascii "a.example", by decide +kernel⟩, Scheme.http.defaultPort,
    ⟨ascii "/", by decide, by decide⟩, ⟨ascii "x", by decide⟩⟩
  have hparse : parse (ascii "HTTP://A.example:080?x#f") = .ok u := by decide +kernel
  have htext : u.text = ascii "http://a.example/?x" := by decide +kernel
  obtain ⟨hread, hsame⟩ := parsed_normal_form (ascii "HTTP://A.example:080?x#f")
    (ascii "HTTP://A.example:080?x#f")
  exact ⟨u, hparse, htext, hread u hparse (by rw [htext]; decide), hsame u u hparse hparse⟩

end Uri

end RefineId
