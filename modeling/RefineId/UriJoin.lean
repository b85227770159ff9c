/-
  RefineId.UriJoin — where a redirect leads.
  ════════════════════════════════════════════════════════════════════════════

  `Uri::join` of `crates/refineid-lib-core/src/text.rs` asks for `http://` and `https://` in small
  letters, where `Uri::parse` takes either case.  A location that is not taken for a URL is put
  behind the authority of the base, from a slash on: no text there changes the authority.

  Main results:
    • `join_relative`   : what is parsed for a location that is put behind the authority.
    • `join_authority`  : its scheme, host and port are the base's.
    • `join_ne_parsed`  : a URL in other letters is never what comes back.
    • `join_exact`      : when a redirect is resolved as it should be.
-/
import RefineId.Uri

namespace RefineId

open Lib Pdf Document

namespace Uri

/-! ## §1. Locations put behind the authority -/

/-- The location begins as `join` wants a URL to begin. -/
def LowerScheme (location : Bytes) : Prop :=
  ascii "http://" <+: location ∨ ascii "https://" <+: location

theorem rsplitOnce_of_mem {sep : UInt8} {text : Bytes} (h : sep ∈ text) :
    ∃ before after, rsplitOnce sep text = some (before, after) := by
  induction text with
  | nil => cases h
  | cons b rest ih =>
    rw [rsplitOnce]
    cases hrest : rsplitOnce sep rest with
    | some parts => exact ⟨_, _, rfl⟩
    | none =>
      obtain rfl | hmem := List.mem_cons.mp h
      · exact ⟨_, _, if_pos rfl⟩
      · obtain ⟨before, after, hsome⟩ := ih hmem
        rw [hrest] at hsome
        cases hsome

/-- **The directory of a URL** begins with a slash, and is a part of its path. -/
theorem directory_rooted (u : Uri) :
    u.directory.head? = some (byte '/') ∧ ∀ b ∈ u.directory, b ∈ u.path.text := by
  have hmem : byte '/' ∈ u.path.text := List.mem_of_head? u.path.rooted
  obtain ⟨before, after, hsplit⟩ := rsplitOnce_of_mem hmem
  have hdirectory : u.directory = u.path.text.take (before.length + 1) := by
    unfold directory
    rw [hsplit]
  rw [hdirectory]
  constructor
  · rw [List.head?_take, if_neg (by omega)]
    exact u.path.rooted
  · intro b hb
    exact List.mem_of_mem_take hb

/-- **A location that is neither** in small letters a URL nor begins with two slashes is put
    behind the authority and, unless it begins with a slash, behind the directory. -/
theorem join_relative (u : Uri) {location : Bytes} (hscheme : ¬ LowerScheme location)
    (hslashes : ¬ ascii "//" <+: location) :
    ∃ front, u.join location = parse (u.origin ++ (front ++ location)) ∧
      (front ++ location).head? = some (byte '/') ∧
      (∀ b ∈ front, b ≠ byte '?' ∧ b ≠ byte '#') ∧
      (location.head? ≠ some (byte '/') → front ≠ []) := by
  have hhttp : ¬ ((ascii "http://").isPrefixOf location ||
      (ascii "https://").isPrefixOf location) = true := by
    rw [Bool.or_eq_true, List.isPrefixOf_iff_prefix, List.isPrefixOf_iff_prefix]
    exact hscheme
  have htwo : ¬ (ascii "//").isPrefixOf location = true := by
    rw [List.isPrefixOf_iff_prefix]
    exact hslashes
  by_cases hone : (ascii "/").isPrefixOf location = true
  · have hhead : location.head? = some (byte '/') := by
      obtain ⟨rest, rfl⟩ := List.isPrefixOf_iff_prefix.mp hone
      rfl
    refine ⟨[], ?_, hhead, by simp, fun hne => absurd hhead hne⟩
    rw [join, if_neg hhttp, if_neg htwo, if_pos hone]
    rfl
  · obtain ⟨hrooted, hpart⟩ := u.directory_rooted
    refine ⟨u.directory, ?_, ?_, fun b hb => u.path.mem_text (hpart b hb), fun _ hnil => ?_⟩
    · rw [join, if_neg hhttp, if_neg htwo, if_neg hone, List.append_assoc]
    · rw [List.head?_append, hrooted]
      rfl
    · rw [hnil] at hrooted
      cases hrooted

/-- **No location changes the authority** it is put behind. -/
theorem join_authority {u r : Uri} {location : Bytes} (hscheme : ¬ LowerScheme location)
    (hslashes : ¬ ascii "//" <+: location) (h : u.join location = .ok r) :
    r.scheme = u.scheme ∧ r.host = u.host ∧ r.port = u.port := by
  obtain ⟨front, hjoin, hrooted, -⟩ := join_relative u hscheme hslashes
  rw [hjoin] at h
  obtain ⟨hs, hh, hp, -⟩ := parse_composed hrooted h
  exact ⟨hs, hh, hp⟩

/-! ## §2. URLs in other letters -/

/-- An accepted scheme, in either case. -/
theorem splitScheme_eq_ok {input afterScheme : Bytes} {scheme : Scheme}
    (h : splitScheme input = .ok (scheme, afterScheme)) :
    ∃ front, input = front ++ afterScheme ∧
      front.map asciiLower = scheme.text ++ ascii "://" := by
  unfold splitScheme at h
  split at h
  next hhttps =>
    obtain ⟨rfl, rfl⟩ := Prod.mk.inj (Except.ok.inj h)
    obtain ⟨-, hsame⟩ := Bool.and_eq_true_iff.mp hhttps
    exact ⟨input.take 8, (List.take_append_drop 8 input).symm, of_decide_eq_true hsame⟩
  next =>
    split at h
    next hhttp =>
      obtain ⟨rfl, rfl⟩ := Prod.mk.inj (Except.ok.inj h)
      obtain ⟨-, hsame⟩ := Bool.and_eq_true_iff.mp hhttp
      exact ⟨input.take 7, (List.take_append_drop 7 input).symm, of_decide_eq_true hsame⟩
    next => cases h

/-- The octets that neither end a path nor begin a query. -/
def isKept (b : UInt8) : Bool := b ≠ byte '?' && b ≠ byte '#'

theorem pathRaw_eq (text : Bytes) : pathRaw text = text.takeWhile isKept := by
  rw [pathRaw, withoutFragment, List.takeWhile_takeWhile]
  congr 1
  funext b
  simp [isKept]

theorem isKept_of_not_endsAuthority {b : UInt8} (h : endsAuthority b = false) :
    isKept b = true := by
  simp only [endsAuthority, Bool.or_eq_false_iff, decide_eq_false_iff_not] at h
  simp only [isKept, Bool.and_eq_true, decide_eq_true_eq]
  exact ⟨h.1.2, h.2⟩

theorem isKept_of_mem_scheme {scheme : Scheme} {front : Bytes}
    (h : front.map asciiLower = scheme.text ++ ascii "://") {b : UInt8} (hb : b ∈ front) :
    isKept b = true := by
  have hmem : asciiLower b ∈ scheme.text ++ ascii "://" := by
    rw [← h]
    exact List.mem_map_of_mem hb
  simp only [isKept, Bool.and_eq_true, decide_eq_true_eq]
  constructor
  · rintro rfl
    cases scheme <;> exact absurd hmem (by decide)
  · rintro rfl
    cases scheme <;> exact absurd hmem (by decide)

theorem head?_of_scheme {scheme : Scheme} {front rest : Bytes}
    (h : front.map asciiLower = scheme.text ++ ascii "://") :
    (front ++ rest).head? ≠ some (byte '/') := by
  cases front with
  | nil => cases scheme <;> cases h
  | cons b front =>
    intro hslash
    obtain rfl : b = byte '/' := Option.some.inj hslash
    have hhead : some (byte '/') = some (byte 'h') := by
      cases scheme <;> exact congrArg List.head? h
    exact absurd hhead (by decide)

/-- **A URL in other letters is not what comes back**: its scheme and authority become a part of
    the path. -/
theorem join_ne_parsed {u r parsed : Uri} {location : Bytes}
    (hparse : parse location = .ok parsed) (hscheme : ¬ LowerScheme location)
    (hjoin : u.join location = .ok r) : r ≠ parsed := by
  rintro rfl
  obtain ⟨afterScheme, hostRaw, hsplit, -, -, hpath, -⟩ := parse_eq_ok hparse
  obtain ⟨scheme, rfl, hlower⟩ := splitScheme_eq_ok hsplit
  have hhead : (scheme ++ afterScheme).head? ≠ some (byte '/') := head?_of_scheme hlower
  have hslashes : ¬ ascii "//" <+: scheme ++ afterScheme := by
    rintro ⟨rest, hrest⟩
    exact hhead (by rw [← hrest]; rfl)
  obtain ⟨front, hcomposed, hrooted, hfront, hne⟩ := join_relative u hscheme hslashes
  rw [hcomposed] at hjoin
  obtain ⟨-, -, -, htext⟩ := parse_composed hrooted hjoin
  -- the path kept holds the directory, the scheme and the authority in front of the parsed one
  have hlong : r.path.text.length = front.length + scheme.length + (authority afterScheme).length +
      (pathRaw (afterAuthority afterScheme)).length := by
    have hkeptFront : ∀ b ∈ front, isKept b = true := by
      intro b hb
      simp only [isKept, Bool.and_eq_true, decide_eq_true_eq]
      exact hfront b hb
    have hkeptScheme : ∀ b ∈ scheme, isKept b = true := fun b hb => isKept_of_mem_scheme hlower hb
    have hkeptAuthority : ∀ b ∈ authority afterScheme, isKept b = true := by
      intro b hb
      have hends := List.mem_takeWhile_imp hb
      exact isKept_of_not_endsAuthority (by simpa using hends)
    have hcut : afterScheme = authority afterScheme ++ afterAuthority afterScheme :=
      List.takeWhile_append_dropWhile.symm
    rw [htext, pathRaw_eq, List.takeWhile_append_of_pos hkeptFront,
      List.takeWhile_append_of_pos hkeptScheme]
    nth_rewrite 1 [hcut]
    rw [List.takeWhile_append_of_pos hkeptAuthority, pathRaw_eq]
    simp only [List.length_append]
    omega
  have hschemeLen : 0 < scheme.length := by
    have hlen := congrArg List.length hlower
    rw [List.length_map, List.length_append] at hlen
    have hthree : (ascii "://").length = 3 := by decide
    omega
  have hfrontLen : 0 < front.length := List.length_pos_iff.mpr (hne hhead)
  have hshort := Path.parse_eq_ok hpath
  rw [hshort] at hlong
  split at hlong
  next hempty =>
    have hone : (ascii "/").length = 1 := by decide
    omega
  next => omega

/-! ## §3. Redirects -/

/-- **A redirect is resolved as it should be**: a location that is a URL replaces the base, and
    another one keeps its authority, exactly when a URL begins with a scheme in small letters. -/
theorem join_exact (base : Uri) (location : Bytes) :
    ((∀ u, parse location = .ok u → base.join location = .ok u) ∧
      ((∀ u, parse location ≠ .ok u) → ¬ ascii "//" <+: location →
        ∀ r, base.join location = .ok r →
          r.scheme = base.scheme ∧ r.host = base.host ∧ r.port = base.port)) ↔
      ((∃ u, parse location = .ok u) → LowerScheme location) := by
  have hlower : LowerScheme location → base.join location = parse location := by
    intro hscheme
    rw [join, if_pos]
    rw [Bool.or_eq_true, List.isPrefixOf_iff_prefix, List.isPrefixOf_iff_prefix]
    exact hscheme
  constructor
  · rintro ⟨hreplaces, -⟩ ⟨u, hparse⟩
    by_contra hscheme
    exact join_ne_parsed hparse hscheme (hreplaces u hparse) rfl
  · intro hscheme
    refine ⟨fun u hparse => ?_, fun hnone hslashes r hjoin => ?_⟩
    · rw [hlower (hscheme ⟨u, hparse⟩), hparse]
    · by_cases hbegins : LowerScheme location
      · rw [hlower hbegins] at hjoin
        exact absurd hjoin (hnone r)
      · exact join_authority hbegins hslashes hjoin

/-- `https://` with this host and path. -/
def plainUrl (host : Host) (path : Path) : Uri :=
  ⟨.https, host, Scheme.https.defaultPort, path, ⟨[], rfl⟩⟩

/-- **A URL with a scheme in capitals** becomes a part of the base's path. -/
theorem capitals_joined :
    ∃ base u r, parse (ascii "https://a.example/x/y") = .ok base ∧
      parse (ascii "HTTPS://b.example/z") = .ok u ∧
      base.join (ascii "HTTPS://b.example/z") = .ok r ∧ r ≠ u ∧ r.host = base.host ∧
      r.path.text = ascii "/x/HTTPS://b.example/z" := by
  let a : Host := ⟨ascii "a.example", by decide +kernel⟩
  let b : Host := ⟨ascii "b.example", by decide +kernel⟩
  refine ⟨plainUrl a ⟨ascii "/x/y", by decide +kernel, by decide⟩,
    plainUrl b ⟨ascii "/z", by decide +kernel, by decide⟩,
    plainUrl a ⟨ascii "/x/HTTPS://b.example/z", by decide +kernel, by decide +kernel⟩,
    by decide +kernel, by decide +kernel, by decide +kernel, by decide +kernel, rfl, rfl⟩

end Uri

end RefineId
