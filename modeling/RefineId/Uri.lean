/-
  RefineId.Uri — the one URL type of the crates.
  ════════════════════════════════════════════════════════════════════════════

  `Uri` of `crates/refineid-lib-core/src/text.rs`: an `http` or `https` URL taken apart into
  validated components, and `Uri::join`, which resolves a redirect by putting text behind the
  authority and parsing it again.  Texts are their octets; every character the parser looks for
  is ASCII.

  A component carries the check it passed, so a `Uri` is one that `parse` could have returned:
  its path begins with a slash, and its host holds no character that ends an authority.

  Main results:
    • `Host.mem_text`       : the octets of a host.
    • `Path.mem_text`       : the octets of a path.
    • `parse_eq_ok`         : what an accepted text says.
    • `parse_composed`      : what is read behind a printed authority, whatever it is.
-/
import RefineId.Document
import RefineId.Pdf

namespace RefineId

namespace Uri

open Lib Pdf Document

/-! ## §1. Errors -/

/-- `UriCharError`. -/
inductive UriCharError where
  | illegalByte (position : Nat) (byte : UInt8)
  | malformedEscape (position : Nat)
  deriving Repr, DecidableEq

/-- `HostError`. -/
inductive HostError where
  | empty
  | tooLong (len : Nat)
  | emptyLabel
  | labelTooLong (len : Nat)
  | labelHyphenBoundary
  | byte (byte : UInt8)
  deriving Repr, DecidableEq

/-- `UriError`. -/
inductive UriError where
  | tooLong (len : Nat)
  | scheme
  | userinfo
  | badPort
  | host (error : HostError)
  | path (error : UriCharError)
  | query (error : UriCharError)
  deriving Repr, DecidableEq

/-- `MAX_URI_LEN`. -/
def maxUriLen : Nat := 8000

/-- `MAX_HOST_LEN`. -/
def maxHostLen : Nat := 253

/-- `MAX_LABEL_LEN`. -/
def maxLabelLen : Nat := 63

/-! ## §2. Octets of the components -/

/-- `u8::is_ascii_lowercase`. -/
def isAsciiLowercase (b : UInt8) : Bool := 97 ≤ b && b ≤ 122

/-- `u8::is_ascii_alphanumeric`. -/
def isAsciiAlphanumeric (b : UInt8) : Bool :=
  isAsciiDigit b || (65 ≤ b && b ≤ 90) || isAsciiLowercase b

/-- `u8::is_ascii_hexdigit`. -/
def isAsciiHexdigit (b : UInt8) : Bool :=
  isAsciiDigit b || (65 ≤ b && b ≤ 70) || (97 ≤ b && b ≤ 102)

/-- `is_pchar`: unreserved, sub-delims, `:` and `@`. -/
def isPchar (b : UInt8) : Bool := isAsciiAlphanumeric b || (ascii "-._~!$&'()*+,;=:@").contains b

/-- The octets a path may hold outside of escapes. -/
def isPathByte (b : UInt8) : Bool := isPchar b || b = byte '/'

/-- The octets a query may hold outside of escapes. -/
def isQueryByte (b : UInt8) : Bool := isPchar b || b = byte '/' || b = byte '?'

/-- `PctScan::first_error`, from `position` on. -/
def firstErrorFrom (allowed : UInt8 → Bool) (position : Nat) : Bytes → Option UriCharError
  | [] => none
  | first :: rest =>
    if first = byte '%' then
      match rest with
      | hi :: lo :: tail =>
        if isAsciiHexdigit hi && isAsciiHexdigit lo then firstErrorFrom allowed (position + 3) tail
        else some (.malformedEscape position)
      | _ => some (.malformedEscape position)
    else if allowed first then firstErrorFrom allowed (position + 1) rest
    else some (.illegalByte position first)

def firstError (text : Bytes) (allowed : UInt8 → Bool) : Option UriCharError :=
  firstErrorFrom allowed 0 text

/-- The octets a label may hold. -/
def isLabelByte (b : UInt8) : Bool := isAsciiLowercase b || isAsciiDigit b || b = byte '-'

/-- The checks of one label. -/
def labelError (label : Bytes) : Option HostError :=
  if label.isEmpty then some .emptyLabel
  else if maxLabelLen < label.length then some (.labelTooLong label.length)
  else if label.head? = some (byte '-') || label.getLast? = some (byte '-') then
    some .labelHyphenBoundary
  else (label.find? fun b => !isLabelByte b).map .byte

/-- The checks of `Host::parse`, behind the lower-casing. -/
def hostError (text : Bytes) : Option HostError :=
  if text.isEmpty then some .empty
  else if maxHostLen < text.length then some (.tooLong text.length)
  else (text.splitOn (byte '.')).findSome? labelError

/-! ## §3. Components -/

/-- `Scheme`. -/
inductive Scheme where
  | http
  | https
  deriving Repr, DecidableEq

/-- A `u16` that is not zero. -/
structure Port where
  number : UInt16
  ne_zero : number ≠ 0
  deriving Repr, DecidableEq

/-- `Scheme::default_port`. -/
def Scheme.defaultPort : Scheme → Port
  | .http => ⟨80, by decide⟩
  | .https => ⟨443, by decide⟩

/-- `Display for Scheme`. -/
def Scheme.text : Scheme → Bytes
  | .http => ascii "http"
  | .https => ascii "https"

/-- `Host`: lower-case labels. -/
structure Host where
  text : Bytes
  checked : hostError text = none
  deriving Repr, DecidableEq

/-- `Host::parse`. -/
def Host.parse (text : Bytes) : Except HostError Host :=
  match h : hostError (text.map asciiLower) with
  | some e => .error e
  | none => .ok ⟨text.map asciiLower, h⟩

/-- `Path`: it begins with a slash. -/
structure Path where
  text : Bytes
  checked : firstError text isPathByte = none
  rooted : text.head? = some (byte '/')
  deriving Repr, DecidableEq

/-- `Path::parse`, for the texts `Uri::parse` cuts out: empty, or behind a slash. -/
def Path.parse (text : Bytes) (rooted : text ≠ [] → text.head? = some (byte '/')) :
    Except UriCharError Path :=
  match h : firstError text isPathByte with
  | some e => .error e
  | none =>
    if hempty : text = [] then .ok ⟨ascii "/", by decide, by decide⟩
    else .ok ⟨text, h, rooted hempty⟩

/-- `Query`. -/
structure Query where
  text : Bytes
  checked : firstError text isQueryByte = none
  deriving Repr, DecidableEq

/-- `Query::parse`. -/
def Query.parse (text : Bytes) : Except UriCharError Query :=
  match h : firstError text isQueryByte with
  | some e => .error e
  | none => .ok ⟨text, h⟩

end Uri

/-- `Uri`. -/
structure Uri where
  scheme : Uri.Scheme
  host : Uri.Host
  port : Uri.Port
  path : Uri.Path
  query : Uri.Query
  deriving Repr, DecidableEq

namespace Uri

open Lib Pdf Document

/-! ## §4. Parsing -/

/-- The scheme, in either case, and what stands behind it. -/
def splitScheme (input : Bytes) : Except UriError (Scheme × Bytes) :=
  if 8 ≤ input.length && eqIgnoreAsciiCase (input.take 8) (ascii "https://") then
    .ok (.https, input.drop 8)
  else if 7 ≤ input.length && eqIgnoreAsciiCase (input.take 7) (ascii "http://") then
    .ok (.http, input.drop 7)
  else .error .scheme

/-- `['/', '?', '#']`: what ends an authority. -/
def endsAuthority (b : UInt8) : Bool := b = byte '/' || b = byte '?' || b = byte '#'

def authority (afterScheme : Bytes) : Bytes := afterScheme.takeWhile fun b => !endsAuthority b

def afterAuthority (afterScheme : Bytes) : Bytes := afterScheme.dropWhile fun b => !endsAuthority b

/-- `split('#').next()`. -/
def withoutFragment (text : Bytes) : Bytes := text.takeWhile fun b => b ≠ byte '#'

/-- `path_raw`: what stands before the first `?`. -/
def pathRaw (text : Bytes) : Bytes := (withoutFragment text).takeWhile fun b => b ≠ byte '?'

/-- `query_raw`: what stands behind the first `?`. -/
def queryRaw (text : Bytes) : Bytes :=
  ((withoutFragment text).dropWhile fun b => b ≠ byte '?').drop 1

/-- `str::rsplit_once`, for one octet. -/
def rsplitOnce (sep : UInt8) : Bytes → Option (Bytes × Bytes)
  | [] => none
  | b :: rest =>
    match rsplitOnce sep rest with
    | some (before, after) => some (b :: before, after)
    | none => if b = sep then some ([], rest) else none

/-- A port of ASCII digits, in range and not zero. -/
def parsePort (portRaw : Bytes) : Except UriError Port :=
  if portRaw.isEmpty || !portRaw.all isAsciiDigit then .error .badPort
  else match parseU16 portRaw with
    | none => .error .badPort
    | some port => if h : UInt16.ofNat port = 0 then .error .badPort else .ok ⟨UInt16.ofNat port, h⟩

/-- `authority.rsplit_once(':')`: the host, and the port or the scheme's own. -/
def splitPort (scheme : Scheme) (authority : Bytes) : Except UriError (Bytes × Port) :=
  match rsplitOnce (byte ':') authority with
  | some (hostRaw, portRaw) => do
    let port ← parsePort portRaw
    return (hostRaw, port)
  | none => .ok (authority, scheme.defaultPort)

theorem endsAuthority_of_cons {afterScheme rest : Bytes} {b : UInt8}
    (h : afterAuthority afterScheme = b :: rest) : endsAuthority b = true := by
  have hhead := List.head?_dropWhile_not (fun b => !endsAuthority b) afterScheme
  rw [show afterScheme.dropWhile (fun b => !endsAuthority b) = b :: rest from h] at hhead
  simpa using hhead

/-- What the parser takes for the path is empty, or begins with a slash. -/
theorem pathRaw_rooted (afterScheme : Bytes) (hne : pathRaw (afterAuthority afterScheme) ≠ []) :
    (pathRaw (afterAuthority afterScheme)).head? = some (byte '/') := by
  cases hrest : afterAuthority afterScheme with
  | nil =>
    rw [hrest] at hne
    exact absurd rfl hne
  | cons b rest =>
    have hends := endsAuthority_of_cons hrest
    rw [hrest] at hne
    simp only [endsAuthority, Bool.or_eq_true, decide_eq_true_eq] at hends
    obtain (rfl | rfl) | rfl := hends
    · rfl
    · exact absurd rfl hne
    · exact absurd rfl hne

/-- `Uri::parse`. -/
def parse (input : Bytes) : Except UriError Uri := do
  if maxUriLen < input.length then .error (.tooLong input.length)
  let (scheme, afterScheme) ← splitScheme input
  if (authority afterScheme).contains (byte '@') then .error .userinfo
  let (hostRaw, port) ← splitPort scheme (authority afterScheme)
  let host ← (Host.parse hostRaw).mapError .host
  let path ← (Path.parse (pathRaw (afterAuthority afterScheme))
    (pathRaw_rooted afterScheme)).mapError .path
  let query ← (Query.parse (queryRaw (afterAuthority afterScheme))).mapError .query
  return ⟨scheme, host, port, path, query⟩

/-! ## §5. Printing and joining -/

/-- `Uri::authority_string`: the scheme's own port is left out. -/
def authorityString (u : Uri) : Bytes :=
  if u.port = u.scheme.defaultPort then u.host.text
  else u.host.text ++ ascii ":" ++ decimal u.port.number.toNat

/-- `format!("{}://{authority}…")`. -/
def origin (u : Uri) : Bytes := u.scheme.text ++ ascii "://" ++ u.authorityString

/-- `Display for Uri`: an empty query is left out with its mark. -/
def text (u : Uri) : Bytes :=
  u.origin ++ (u.path.text ++ if u.query.text = [] then [] else ascii "?" ++ u.query.text)

/-- The path up to its last slash. -/
def directory (u : Uri) : Bytes :=
  match rsplitOnce (byte '/') u.path.text with
  | some (before, _) => u.path.text.take (before.length + 1)
  | none => []

/-- `Uri::join`. -/
def join (u : Uri) (location : Bytes) : Except UriError Uri :=
  if (ascii "http://").isPrefixOf location || (ascii "https://").isPrefixOf location then
    parse location
  else if (ascii "//").isPrefixOf location then
    parse (u.scheme.text ++ ascii "://" ++ location.drop 2)
  else if (ascii "/").isPrefixOf location then parse (u.origin ++ location)
  else parse (u.origin ++ u.directory ++ location)

/-! ## §6. The octets of a component -/

theorem mem_of_firstErrorFrom {allowed : UInt8 → Bool} {position : Nat} {text : Bytes}
    (h : firstErrorFrom allowed position text = none) :
    ∀ b ∈ text, b = byte '%' ∨ isAsciiHexdigit b = true ∨ allowed b = true := by
  fun_induction firstErrorFrom allowed position text with
  | case1 position => simp
  | case2 position hi lo tail hhex ih =>
    rw [Bool.and_eq_true] at hhex
    intro b hb
    simp only [List.mem_cons] at hb
    obtain rfl | rfl | rfl | hb := hb
    · exact .inl rfl
    · exact .inr (.inl hhex.1)
    · exact .inr (.inl hhex.2)
    · exact ih h b hb
  | case3 => cases h
  | case4 => cases h
  | case5 position first rest hpercent hallowed ih =>
    intro b hb
    obtain rfl | hb := List.mem_cons.mp hb
    · exact .inr (.inr hallowed)
    · exact ih h b hb
  | case6 => cases h

/-- **A path holds no octet that ends it.** -/
theorem Path.mem_text (path : Path) {b : UInt8} (hb : b ∈ path.text) :
    b ≠ byte '?' ∧ b ≠ byte '#' := by
  have hkind := mem_of_firstErrorFrom path.checked b hb
  constructor <;>
  · rintro rfl
    exact absurd hkind (by decide)

theorem mem_splitOn {sep b : UInt8} (hne : b ≠ sep) {text : Bytes} (hb : b ∈ text) :
    ∃ label ∈ text.splitOn sep, b ∈ label := by
  induction text with
  | nil => cases hb
  | cons a text ih =>
    show ∃ label ∈ (a :: text).splitOnP (· == sep), b ∈ label
    rw [List.splitOnP_cons_eq_if_modifyHead]
    split
    next hsep =>
      obtain rfl | hb := List.mem_cons.mp hb
      · exact absurd (beq_iff_eq.mp hsep) hne
      · obtain ⟨label, hlabel, hmem⟩ := ih hb
        exact ⟨label, List.mem_cons_of_mem _ hlabel, hmem⟩
    next =>
      obtain ⟨first, others, hsplit⟩ :=
        List.exists_cons_of_ne_nil (List.splitOnP_ne_nil (· == sep) text)
      rw [hsplit, List.modifyHead_cons]
      obtain rfl | hb := List.mem_cons.mp hb
      · exact ⟨b :: first, List.mem_cons_self, List.mem_cons_self⟩
      · obtain ⟨label, hlabel, hmem⟩ := ih hb
        rw [List.splitOn, hsplit] at hlabel
        obtain rfl | hlabel := List.mem_cons.mp hlabel
        · exact ⟨a :: label, List.mem_cons_self, List.mem_cons_of_mem _ hmem⟩
        · exact ⟨label, List.mem_cons_of_mem _ hlabel, hmem⟩

/-- **The octets of a host.** -/
theorem Host.mem_text (host : Host) {b : UInt8} (hb : b ∈ host.text) :
    isLabelByte b = true ∨ b = byte '.' := by
  by_cases hdot : b = byte '.'
  · exact .inr hdot
  have hchecked := host.checked
  simp only [hostError] at hchecked
  split at hchecked
  · cases hchecked
  split at hchecked
  · cases hchecked
  obtain ⟨label, hlabel, hmem⟩ := mem_splitOn hdot hb
  have hlabelOk := List.findSome?_eq_none_iff.mp hchecked label hlabel
  simp only [labelError] at hlabelOk
  split at hlabelOk
  · cases hlabelOk
  split at hlabelOk
  · cases hlabelOk
  split at hlabelOk
  · cases hlabelOk
  have hall := List.find?_eq_none.mp (Option.map_eq_none_iff.mp hlabelOk) b hmem
  exact .inl (by simpa using hall)

theorem asciiLower_of_isLabelByte {b : UInt8} (h : isLabelByte b = true) : asciiLower b = b := by
  have hbits : ∀ n < 256, isLabelByte (UInt8.ofNat n) = true →
      asciiLower (UInt8.ofNat n) = UInt8.ofNat n := by decide +kernel
  have hb := hbits b.toNat b.toNat_lt
  rw [UInt8.ofNat_toNat] at hb
  exact hb h

/-- **A host is read back.** -/
theorem Host.parse_text (host : Host) : Host.parse host.text = .ok host := by
  have hlower : host.text.map asciiLower = host.text := by
    rw [List.map_congr_left (g := id) ?_, List.map_id]
    intro b hb
    obtain hlabel | rfl := host.mem_text hb
    · exact asciiLower_of_isLabelByte hlabel
    · rfl
  obtain ⟨text, hchecked⟩ := host
  unfold Host.parse
  split
  next e he =>
    rw [hlower, hchecked] at he
    cases he
  next =>
    congr 2

theorem rsplitOnce_of_not_mem {sep : UInt8} {text : Bytes} (h : sep ∉ text) :
    rsplitOnce sep text = none := by
  induction text with
  | nil => rfl
  | cons b rest ih =>
    obtain ⟨hb, hrest⟩ := not_or.mp (mt List.mem_cons.mpr h)
    rw [rsplitOnce, ih hrest]
    exact if_neg (Ne.symm hb)

theorem rsplitOnce_append {sep : UInt8} {before after : Bytes} (h : sep ∉ after) :
    rsplitOnce sep (before ++ sep :: after) = some (before, after) := by
  induction before with
  | nil =>
    rw [List.nil_append, rsplitOnce, rsplitOnce_of_not_mem h]
    exact if_pos rfl
  | cons b before ih => rw [List.cons_append, rsplitOnce, ih]

theorem digit_ne {b : UInt8} (h : isAsciiDigit b = true) :
    b ≠ byte ':' ∧ b ≠ byte '@' ∧ endsAuthority b = false := by
  refine ⟨?_, ?_, ?_⟩
  · rintro rfl
    exact absurd h (by decide)
  · rintro rfl
    exact absurd h (by decide)
  · by_contra hends
    simp only [endsAuthority, Bool.not_eq_false, Bool.or_eq_true, decide_eq_true_eq] at hends
    obtain (rfl | rfl) | rfl := hends <;> exact absurd h (by decide)

theorem Host.text_ne (host : Host) {b : UInt8} (hb : b ∈ host.text) :
    b ≠ byte ':' ∧ b ≠ byte '@' ∧ endsAuthority b = false := by
  have hkind := host.mem_text hb
  refine ⟨?_, ?_, ?_⟩
  · rintro rfl
    exact absurd hkind (by decide)
  · rintro rfl
    exact absurd hkind (by decide)
  · by_contra hends
    simp only [endsAuthority, Bool.not_eq_false, Bool.or_eq_true, decide_eq_true_eq] at hends
    obtain (rfl | rfl) | rfl := hends <;> exact absurd hkind (by decide)

/-! ## §7. Reading a printed authority back -/

theorem parsePort_decimal (port : Port) : parsePort (decimal port.number.toNat) = .ok port := by
  have hlt : port.number.toNat < 2 ^ 16 := port.number.toNat_lt
  have hnonempty : (decimal port.number.toNat).isEmpty = false := by simp [decimal_ne_nil]
  have hdigits : (decimal port.number.toNat).all isAsciiDigit = true :=
    List.all_eq_true.mpr fun _ => decimal_digits
  have hvalue : parseU16 (decimal port.number.toNat) = some port.number.toNat := by
    rw [parseU16, parseUsize_decimal (by unfold usizeMax; omega), Option.bind_some, narrow,
      if_pos (by unfold u16Max; omega)]
  have hsame : UInt16.ofNat port.number.toNat = port.number := UInt16.ofNat_toNat
  rw [parsePort, hnonempty, hdigits, if_neg (by decide), hvalue]
  simp only [hsame, dif_neg port.ne_zero]

/-- **The scheme of a printed URL is read back**, whatever follows. -/
theorem splitScheme_text (scheme : Scheme) (rest : Bytes) :
    splitScheme (scheme.text ++ ascii "://" ++ rest) = .ok (scheme, rest) := by
  cases scheme with
  | http =>
    -- the fifth octet tells the two schemes apart
    have hother : eqIgnoreAsciiCase ((ascii "http://" ++ rest).take 8) (ascii "https://") =
        false := by
      rw [eqIgnoreAsciiCase, decide_eq_false_iff_not]
      intro hsame
      have hfifth : some (byte ':') = some (byte 's') := congrArg (fun text => text[4]?) hsame
      exact absurd hfifth (by decide)
    have hlen : 7 ≤ (ascii "http://" ++ rest).length := by
      rw [List.length_append]
      exact Nat.le_add_right 7 _
    show splitScheme (ascii "http://" ++ rest) = _
    rw [splitScheme, hother, Bool.and_false, if_neg (by decide), decide_eq_true hlen,
      Bool.true_and]
    rfl
  | https =>
    have hlen : 8 ≤ (ascii "https://" ++ rest).length := by
      rw [List.length_append]
      exact Nat.le_add_right 8 _
    show splitScheme (ascii "https://" ++ rest) = _
    rw [splitScheme, decide_eq_true hlen, Bool.true_and]
    rfl

theorem authorityString_ne (u : Uri) {b : UInt8} (hb : b ∈ u.authorityString) :
    b ≠ byte '@' ∧ endsAuthority b = false := by
  unfold authorityString at hb
  split at hb
  · exact (u.host.text_ne hb).2
  · simp only [List.mem_append] at hb
    obtain (hb | hb) | hb := hb
    · exact (u.host.text_ne hb).2
    · obtain rfl := List.mem_singleton.mp hb
      decide
    · exact (digit_ne (decimal_digits hb)).2

/-- **A printed authority is split where it was put together.** -/
theorem splitPort_authorityString (u : Uri) :
    splitPort u.scheme u.authorityString = .ok (u.host.text, u.port) := by
  unfold authorityString
  split
  next hport =>
    rw [splitPort, rsplitOnce_of_not_mem fun hmem => (u.host.text_ne hmem).1 rfl, hport]
  next =>
    have hdigits : byte ':' ∉ decimal u.port.number.toNat := fun hmem =>
      (digit_ne (decimal_digits hmem)).1 rfl
    have hsplit : rsplitOnce (byte ':') (u.host.text ++ ascii ":" ++ decimal u.port.number.toNat) =
        some (u.host.text, decimal u.port.number.toNat) := by
      rw [List.append_assoc]
      exact rsplitOnce_append hdigits
    rw [splitPort, hsplit]
    simp only [parsePort_decimal]
    rfl

theorem authority_append {front rest : Bytes} (hfront : ∀ b ∈ front, endsAuthority b = false)
    (hrest : rest.head? = some (byte '/')) :
    authority (front ++ rest) = front ∧ afterAuthority (front ++ rest) = rest := by
  have hkept : ∀ b ∈ front, (!endsAuthority b) = true := fun b hb => by rw [hfront b hb]; rfl
  cases rest with
  | nil => cases hrest
  | cons b rest =>
    obtain rfl := Option.some.inj hrest
    constructor
    · rw [authority, List.takeWhile_append_of_pos hkept]
      exact List.append_nil front
    · rw [afterAuthority, List.dropWhile_append_of_pos hkept]
      rfl

/-- What an accepted text says. -/
theorem parse_eq_ok {input : Bytes} {u : Uri} (h : parse input = .ok u) :
    ∃ afterScheme hostRaw, splitScheme input = .ok (u.scheme, afterScheme) ∧
      splitPort u.scheme (authority afterScheme) = .ok (hostRaw, u.port) ∧
      Host.parse hostRaw = .ok u.host ∧
      Path.parse (pathRaw (afterAuthority afterScheme)) (pathRaw_rooted afterScheme) = .ok u.path ∧
      Query.parse (queryRaw (afterAuthority afterScheme)) = .ok u.query := by
  unfold parse at h
  split at h
  · cases h
  obtain ⟨⟨scheme, afterScheme⟩, hscheme, h⟩ := bind_eq_ok.mp h
  dsimp only at h
  split at h
  · cases h
  obtain ⟨⟨hostRaw, port⟩, hport, h⟩ := bind_eq_ok.mp h
  obtain ⟨host, hhost, h⟩ := bind_eq_ok.mp h
  obtain ⟨path, hpath, h⟩ := bind_eq_ok.mp h
  obtain ⟨query, hquery, h⟩ := bind_eq_ok.mp h
  obtain rfl := pure_eq_ok.mp h
  exact ⟨afterScheme, hostRaw, hscheme, hport, mapError_eq_ok_iff.mp hhost,
    mapError_eq_ok_iff.mp hpath, mapError_eq_ok_iff.mp hquery⟩

theorem Path.parse_eq_ok {text : Bytes} {rooted : text ≠ [] → text.head? = some (byte '/')}
    {path : Path} (h : Path.parse text rooted = .ok path) :
    path.text = if text = [] then ascii "/" else text := by
  unfold Path.parse at h
  split at h
  · cases h
  split at h
  next hempty =>
    rw [if_pos hempty, ← Except.ok.inj h]
  next hne =>
    rw [if_neg hne, ← Except.ok.inj h]

/-- **Whatever is put behind a printed authority**, from a slash on: what is read has the
    scheme, the host and the port that were printed. -/
theorem parse_composed {u r : Uri} {tail : Bytes} (htail : tail.head? = some (byte '/'))
    (h : parse (u.origin ++ tail) = .ok r) :
    r.scheme = u.scheme ∧ r.host = u.host ∧ r.port = u.port ∧ r.path.text = pathRaw tail := by
  obtain ⟨afterScheme, hostRaw, hscheme, hport, hhost, hpath, -⟩ := parse_eq_ok h
  rw [origin, List.append_assoc, splitScheme_text] at hscheme
  obtain ⟨hsame, rfl⟩ := Prod.mk.inj (Except.ok.inj hscheme)
  obtain ⟨hauthority, hafter⟩ :=
    authority_append (fun b hb => (authorityString_ne u hb).2) htail
  rw [hauthority, ← hsame, splitPort_authorityString] at hport
  obtain ⟨rfl, hnumber⟩ := Prod.mk.inj (Except.ok.inj hport)
  rw [Host.parse_text] at hhost
  have hne : pathRaw tail ≠ [] := by
    cases tail with
    | nil => cases htail
    | cons b tail =>
      obtain rfl := Option.some.inj htail
      exact List.cons_ne_nil _ _
  have htext := Path.parse_eq_ok hpath
  rw [hafter, if_neg hne] at htext
  exact ⟨hsame.symm, (Except.ok.inj hhost).symm, hnumber.symm, htext⟩

end Uri

end RefineId
