/-
  RefineId.Lib.Xml — reading XML as a stream of events.
  ════════════════════════════════════════════════════════════════════════════

  A reader for the XML that canonical form leaves: start tags with double-quoted
  attributes, end tags and character data; no comments, processing instructions, CDATA
  sections or declarations.  It turns a text into start, stop and text events, resolves
  the references in values and content, and checks that the tags nest and that there is
  one root.

  Main results:
    • `events_written` : a text put together from tags and escaped content is read back as
                         the events it was put together from.
    • `Reads.append`   : parts of a document follow each other.
    • `Reads.parse`    : so a document of well-nested events parses to them.
-/
import RefineId.Lib.Unfold
import RefineId.Lib.Search
import RefineId.Lib.Utf8

namespace RefineId.Lib.Xml

/-! ## §1. Characters and references -/

/-- The `Char` production of XML 1.0. -/
def isXmlChar (c : Char) : Bool :=
  c = '\t' || c = '\n' || c = '\r' || (0x20 ≤ c.toNat && c.toNat ≤ 0xFFFD) || 0x10000 ≤ c.toNat

/-- The characters of the names this reader knows. -/
def isNameChar (c : Char) : Bool := c.isAlphanum || c = ':' || c = '-' || c = '_' || c = '.'

def digitValue (c : Char) : Option Nat :=
  if '0' ≤ c ∧ c ≤ '9' then some (c.toNat - 48)
  else if 'A' ≤ c ∧ c ≤ 'F' then some (c.toNat - 55)
  else if 'a' ≤ c ∧ c ≤ 'f' then some (c.toNat - 87)
  else none

/-- A numeral in a base. -/
def numeral (base : Nat) (digits : Text) : Option Nat :=
  if digits = [] then none
  else digits.foldlM (fun acc c => do
    let d ← digitValue c
    if d < base then return acc * base + d else none) 0

/-- A character named by its code point. -/
def charRef (n : Nat) : Option Char :=
  if n.isValidChar && isXmlChar (Char.ofNat n) then some (Char.ofNat n) else none

/-- The character a reference stands for. -/
def entity (name : Text) : Option Char :=
  if name = chars "amp" then some '&'
  else if name = chars "lt" then some '<'
  else if name = chars "gt" then some '>'
  else if name = chars "quot" then some '"'
  else if name = chars "apos" then some '\''
  else match name with
    | '#' :: 'x' :: digits => (numeral 16 digits).bind charRef
    | '#' :: digits => (numeral 10 digits).bind charRef
    | _ => none

/-- One character of a value or of content; `normal` is what a literal one is read as. -/
def refStep (normal : Char → Char) : Text → Option Char × Option Text
  | [] => (none, none)
  | c :: rest =>
    if c = '&' then
      match splitOnce [';'] rest with
      | none => (none, none)
      | some (name, after) => (entity name, some after)
    else (some (normal c), some rest)

/-- A value or content with its references resolved. -/
def resolve (normal : Char → Char) (raw : Text) : Option Text :=
  (unfold (refStep normal) raw).mapM id

/-- Literal white space in an attribute value is read as a space. -/
def attributeChar (c : Char) : Char := if c = '\t' || c = '\n' || c = '\r' then ' ' else c

/-- A literal line end in content is a line feed. -/
def contentChar (c : Char) : Char := if c = '\r' then '\n' else c

/-! ## §2. Events -/

inductive Event where
  | start (name : Text) (attrs : List (Text × Text))
  | stop (name : Text)
  | text (content : Text)
  deriving Repr, DecidableEq

/-- The attributes of a start tag, up to its `>`. -/
def readAttributes : Nat → Text → Option (List (Text × Text) × Text)
  | 0, _ => none
  | _ + 1, [] => none
  | fuel + 1, c :: rest =>
    if c = '>' then some ([], rest)
    else if c = ' ' then do
      let (name, afterName) ← splitOnce ['=', '"'] rest
      let (raw, afterValue) ← splitOnce ['"'] afterName
      if name.all isNameChar && !raw.contains '<' then
        let value ← resolve attributeChar raw
        let (more, after) ← readAttributes fuel afterValue
        return ((name, value) :: more, after)
      else none
    else none

/-- One event off the front. -/
def eventStep : Text → Option Event × Option Text
  | [] => (none, none)
  | c :: rest =>
    if c = '<' then
      match rest with
      | '/' :: body =>
        match splitOnce ['>'] body with
        | none => (none, none)
        | some (name, after) => (if name.all isNameChar then some (.stop name) else none, some after)
      | body =>
        match readAttributes (body.length + 1) (body.dropWhile isNameChar) with
        | none => (none, none)
        | some (attrs, after) =>
          (if body.takeWhile isNameChar = [] then none
            else some (.start (body.takeWhile isNameChar) attrs), some after)
    else ((resolve contentChar (c :: rest.takeWhile (· ≠ '<'))).map .text,
      some (rest.dropWhile (· ≠ '<')))

/-- All events of a text. -/
def events (input : Text) : Option (List Event) := (unfold eventStep input).mapM id

/-- The tags nest inside the elements that are open, and nothing follows the root. -/
def inside : List Text → List Event → Bool
  | [], [] => true
  | [], _ :: _ => false
  | _ :: _, [] => false
  | open' :: stack, .start name _ :: rest => inside (name :: open' :: stack) rest
  | open' :: stack, .stop name :: rest => name = open' && inside stack rest
  | open' :: stack, .text _ :: rest => inside (open' :: stack) rest

/-- One root element with well-nested content. -/
def wellFormed : List Event → Bool
  | .start name _ :: rest => inside [name] rest
  | _ => false

/-- **The reader.** -/
def parse (input : Text) : Option (List Event) :=
  if input.all isXmlChar then
    match events input with
    | none => none
    | some found => if wellFormed found then some found else none
  else none

/-! ## §3. Resolving references -/

theorem mapM_id_some {β : Type} (items : List β) : (items.map some).mapM id = some items := by
  induction items with
  | nil => rfl
  | cons a as ih => simp [List.mapM_cons, ih]

theorem refStep_shrinks (normal : Char → Char) : Shrinks (refStep normal) := by
  intro input item rest h
  cases input with
  | nil => simp [refStep] at h
  | cons c tl =>
    simp only [refStep] at h
    split at h
    · split at h
      · simp at h
      next name after hsplit =>
        obtain ⟨-, rfl⟩ : _ ∧ after = rest := by simpa using h
        have hlen := splitOnce_length hsplit
        simp only [List.length_cons, List.length_nil] at hlen ⊢
        omega
    · obtain ⟨-, rfl⟩ : _ ∧ tl = rest := by simpa using h
      simp

/-- A piece that stands for one character. -/
def StandsFor (normal : Char → Char) (raw : Text) (c : Char) : Prop :=
  raw ≠ [] ∧ ∀ rest, refStep normal (raw ++ rest) = (some c, some rest)

theorem standsFor_literal {normal : Char → Char} {c d : Char} (hc : c ≠ '&') (hd : normal c = d) :
    StandsFor normal [c] d := by
  refine ⟨by simp, fun rest => ?_⟩
  show refStep normal (c :: rest) = _
  rw [refStep, if_neg hc, hd]

theorem standsFor_entity {normal : Char → Char} (name : Text) {c : Char} (hname : ';' ∉ name)
    (hc : entity name = some c) : StandsFor normal ('&' :: name ++ [';']) c := by
  refine ⟨by simp, fun rest => ?_⟩
  have hsplit : splitOnce [';'] (name ++ ';' :: rest) = some (name, rest) :=
    splitOnce_char rest hname
  simp only [List.cons_append, List.append_assoc, List.nil_append, refStep, if_true, hsplit, hc]

/-- **Pieces that stand for the characters of a text resolve to it.** -/
theorem resolve_flatMap {normal : Char → Char} {escape : Char → Text} {text : Text}
    (h : ∀ c ∈ text, StandsFor normal (escape c) c) :
    resolve normal (text.flatMap escape) = some text := by
  have hunfold : unfold (refStep normal) (text.flatMap escape) = text.map some := by
    induction text with
    | nil => rfl
    | cons c cs ih =>
      obtain ⟨hne, hstep⟩ := h c List.mem_cons_self
      have hrest := ih fun d hd => h d (List.mem_cons_of_mem _ hd)
      obtain ⟨a, as, ha⟩ := List.exists_cons_of_ne_nil hne
      have hfirst := hstep (cs.flatMap escape)
      rw [List.flatMap_cons, ha, List.cons_append, unfold_cons (refStep_shrinks normal),
        ← List.cons_append, ← ha, hfirst]
      simp [hrest]
  rw [resolve, hunfold, mapM_id_some]

theorem resolve_literal {normal : Char → Char} {text : Text}
    (h : ∀ c ∈ text, c ≠ '&' ∧ normal c = c) : resolve normal text = some text := by
  have hsingle : resolve normal (text.flatMap fun c => [c]) = some text :=
    resolve_flatMap fun c hc => standsFor_literal (h c hc).1 (h c hc).2
  simpa using hsingle

/-- The characters that stand for themselves everywhere: printable ASCII but `&`, `<`, `"`. -/
def isLiteral (c : Char) : Bool :=
  0x20 ≤ c.toNat && c.toNat < 0x7F && c ≠ '&' && c ≠ '<' && c ≠ '"'

theorem isLiteral_spec {c : Char} (h : isLiteral c = true) :
    isXmlChar c = true ∧ c ≠ '&' ∧ c ≠ '<' ∧ c ≠ '"' ∧ attributeChar c = c ∧ contentChar c = c := by
  simp only [isLiteral, Bool.and_eq_true, decide_eq_true_eq] at h
  obtain ⟨⟨⟨⟨hlow, hhigh⟩, hamp⟩, hless⟩, hquote⟩ := h
  have htab : c ≠ '\t' := fun hc => absurd hlow (by rw [hc]; decide)
  have hlf : c ≠ '\n' := fun hc => absurd hlow (by rw [hc]; decide)
  have hcr : c ≠ '\r' := fun hc => absurd hlow (by rw [hc]; decide)
  have hchar : isXmlChar c = true := by
    simp only [isXmlChar, Bool.or_eq_true, Bool.and_eq_true, decide_eq_true_eq]
    exact Or.inl (Or.inr ⟨hlow, by omega⟩)
  refine ⟨hchar, hamp, hless, hquote, ?_, ?_⟩
  · simp [attributeChar, htab, hlf, hcr]
  · simp [contentChar, hcr]

/-! ## §4. Reading tags back -/

/-- An attribute value as it is written, and what it is read as. -/
structure Quoted (raw value : Text) : Prop where
  quote : '"' ∉ raw
  less : '<' ∉ raw
  resolves : resolve attributeChar raw = some value

theorem quoted_literal {text : Text} (h : ∀ c ∈ text, isLiteral c = true) : Quoted text text where
  quote hc := (isLiteral_spec (h _ hc)).2.2.2.1 rfl
  less hc := (isLiteral_spec (h _ hc)).2.2.1 rfl
  resolves := resolve_literal fun c hc =>
    ⟨(isLiteral_spec (h c hc)).2.1, (isLiteral_spec (h c hc)).2.2.2.2.1⟩

/-- An attribute: its name, its value as written, its value. -/
structure Attribute where
  name : Text
  raw : Text
  value : Text

/-- The attribute is read as it is meant. -/
structure Attribute.Ok (a : Attribute) : Prop where
  name : ∀ c ∈ a.name, isNameChar c = true
  value : Quoted a.raw a.value

def Attribute.write (a : Attribute) : Text := ' ' :: (a.name ++ '=' :: '"' :: (a.raw ++ ['"']))

/-- A start tag. -/
def startTag (name : Text) (attrs : List Attribute) : Text :=
  '<' :: (name ++ (attrs.flatMap Attribute.write ++ ['>']))

/-- An end tag. -/
def endTag (name : Text) : Text := '<' :: '/' :: (name ++ ['>'])

theorem not_isNameChar_of_mem {name : Text} {c : Char} (h : ∀ d ∈ name, isNameChar d = true)
    (hc : isNameChar c = false) : c ∉ name := by
  intro hmem
  rw [h c hmem] at hc
  cases hc

theorem readAttributes_written (attrs : List Attribute) (hok : ∀ a ∈ attrs, a.Ok) (rest : Text)
    {fuel : Nat} (hfuel : attrs.length < fuel) :
    readAttributes fuel (attrs.flatMap Attribute.write ++ '>' :: rest)
      = some (attrs.map fun a => (a.name, a.value), rest) := by
  induction attrs generalizing fuel with
  | nil =>
    cases fuel with
    | zero => simp at hfuel
    | succ fuel => simp [readAttributes]
  | cons a attrs ih =>
    cases fuel with
    | zero => simp at hfuel
    | succ fuel =>
      have ha := hok a List.mem_cons_self
      have hrest : readAttributes fuel (attrs.flatMap Attribute.write ++ '>' :: rest)
          = some (attrs.map fun a => (a.name, a.value), rest) :=
        ih (fun b hb => hok b (List.mem_cons_of_mem _ hb)) (by simpa using hfuel)
      have hname : splitOnce ['=', '"'] (a.name ++ '=' :: '"' :: (a.raw ++ '"' ::
          (attrs.flatMap Attribute.write ++ '>' :: rest)))
            = some (a.name, a.raw ++ '"' :: (attrs.flatMap Attribute.write ++ '>' :: rest)) :=
        splitOnce_pair _ (by decide) (not_isNameChar_of_mem ha.name (by decide))
      have hvalue : splitOnce ['"'] (a.raw ++ '"' ::
          (attrs.flatMap Attribute.write ++ '>' :: rest))
            = some (a.raw, attrs.flatMap Attribute.write ++ '>' :: rest) :=
        splitOnce_char _ ha.value.quote
      have hcheck : (a.name.all isNameChar && !a.raw.contains '<') = true := by
        simpa using ⟨ha.name, ha.value.less⟩
      have hshape : (a :: attrs).flatMap Attribute.write ++ '>' :: rest
          = ' ' :: (a.name ++ '=' :: '"' :: (a.raw ++ '"' ::
            (attrs.flatMap Attribute.write ++ '>' :: rest))) := by
        simp [Attribute.write]
      rw [hshape, readAttributes, if_neg (by decide), if_pos rfl, hname]
      simp only [Option.bind_eq_bind, Option.bind_some, hvalue, hcheck, if_true,
        ha.value.resolves, hrest]
      rfl

theorem readAttributes_length {fuel : Nat} {input after : Text} {attrs : List (Text × Text)}
    (h : readAttributes fuel input = some (attrs, after)) : after.length < input.length := by
  induction fuel generalizing input attrs with
  | zero => simp [readAttributes] at h
  | succ fuel ih =>
    cases input with
    | nil => simp [readAttributes] at h
    | cons c rest =>
      rw [readAttributes] at h
      split at h
      · injection h with h
        injection h with _ hafter
        simp [← hafter]
      · split at h
        · obtain ⟨⟨name, afterName⟩, hname, h⟩ := Option.bind_eq_some_iff.mp h
          obtain ⟨⟨raw, afterValue⟩, hvalue, h⟩ := Option.bind_eq_some_iff.mp h
          simp only [Option.ite_none_right_eq_some] at h
          obtain ⟨-, h⟩ := h
          obtain ⟨value, -, h⟩ := Option.bind_eq_some_iff.mp h
          obtain ⟨⟨more, after'⟩, hmore, h⟩ := Option.bind_eq_some_iff.mp h
          obtain ⟨-, rfl⟩ : _ ∧ after' = after := by simpa using h
          have h1 := splitOnce_length hname
          have h2 := splitOnce_length hvalue
          have h3 := ih hmore
          simp only [List.length_cons, List.length_nil] at h1 h2 ⊢
          omega
        · cases h

theorem length_dropWhile_le {α : Type} (p : α → Bool) (l : List α) :
    (l.dropWhile p).length ≤ l.length := (List.dropWhile_sublist p).length_le

theorem eventStep_shrinks : Shrinks eventStep := by
  intro input item rest h
  cases input with
  | nil => simp [eventStep] at h
  | cons c tl =>
    simp only [eventStep] at h
    split at h
    · split at h
      next body =>
        split at h
        · simp at h
        next name after hsplit =>
          obtain ⟨-, rfl⟩ : _ ∧ after = rest := by simpa using h
          have hlen := splitOnce_length hsplit
          simp only [List.length_cons, List.length_nil] at hlen ⊢
          omega
      · split at h
        · simp at h
        next attrs after hattrs =>
          obtain ⟨-, rfl⟩ : _ ∧ after = rest := by simpa using h
          have hlen := readAttributes_length hattrs
          have hdrop := length_dropWhile_le isNameChar tl
          simp only [List.length_cons]
          omega
    · obtain ⟨-, rfl⟩ : _ ∧ tl.dropWhile (· ≠ '<') = rest := by simpa using h
      have hdrop := length_dropWhile_le (fun d => decide (d ≠ '<')) tl
      simp only [List.length_cons]
      omega

/-- A piece of a document, and the event it is. -/
inductive Writes : Text → Event → Prop where
  | start {name : Text} (attrs : List Attribute) (hne : name ≠ [])
      (hname : ∀ c ∈ name, isNameChar c = true) (hattrs : ∀ a ∈ attrs, a.Ok) :
      Writes (startTag name attrs) (.start name (attrs.map fun a => (a.name, a.value)))
  | stop {name : Text} (hname : ∀ c ∈ name, isNameChar c = true) : Writes (endTag name) (.stop name)
  | text {raw content : Text} (hne : raw ≠ []) (hless : '<' ∉ raw)
      (hresolves : resolve contentChar raw = some content) : Writes raw (.text content)

def Event.isText : Event → Bool
  | .text _ => true
  | _ => false

theorem Writes.ne_nil {raw : Text} {e : Event} (h : Writes raw e) : raw ≠ [] := by
  cases h with
  | start attrs hne hname hattrs => simp [startTag]
  | stop hname => simp [endTag]
  | text hne hless hresolves => exact hne

/-- Every piece but content begins with `<`. -/
theorem Writes.head {raw : Text} {e : Event} (h : Writes raw e) (he : e.isText = false) :
    raw.head? = some '<' := by
  cases h with
  | start attrs hne hname hattrs => rfl
  | stop hname => rfl
  | text hne hless hresolves => cases he

theorem length_le_written (attrs : List Attribute) :
    attrs.length ≤ (attrs.flatMap Attribute.write).length := by
  induction attrs with
  | nil => simp
  | cons a attrs ih =>
    simp only [List.flatMap_cons, List.length_append, List.length_cons, Attribute.write]
    omega

theorem eventStep_start {name : Text} {attrs : List Attribute} (rest : Text) (hne : name ≠ [])
    (hname : ∀ c ∈ name, isNameChar c = true) (hattrs : ∀ a ∈ attrs, a.Ok) :
    eventStep (startTag name attrs ++ rest)
      = (some (.start name (attrs.map fun a => (a.name, a.value))), some rest) := by
  have hshape : startTag name attrs ++ rest
      = '<' :: (name ++ (attrs.flatMap Attribute.write ++ '>' :: rest)) := by
    simp [startTag]
  -- the name ends where the attributes or the `>` begin
  have htail : ∀ {d : Char} {ds : Text}, attrs.flatMap Attribute.write ++ '>' :: rest = d :: ds →
      isNameChar d = false := by
    intro d ds hd
    cases attrs with
    | nil =>
      rw [List.flatMap_nil, List.nil_append] at hd
      injection hd with hd
      rw [← hd]
      decide
    | cons a attrs =>
      simp only [List.flatMap_cons, Attribute.write, List.cons_append] at hd
      injection hd with hd
      rw [← hd]
      decide
  generalize htailText : attrs.flatMap Attribute.write ++ '>' :: rest = tail at htail hshape
  have htake : (name ++ tail).takeWhile isNameChar = name := by
    rw [List.takeWhile_append_of_pos hname]
    cases tail with
    | nil => simp
    | cons d ds => simp [htail rfl]
  have hdrop : (name ++ tail).dropWhile isNameChar = tail := by
    rw [List.dropWhile_append_of_pos hname]
    cases tail with
    | nil => simp
    | cons d ds => simp [htail rfl]
  have hread : readAttributes ((name ++ tail).length + 1) tail
      = some (attrs.map fun a => (a.name, a.value), rest) := by
    rw [← htailText]
    refine readAttributes_written attrs hattrs rest ?_
    have hcount := length_le_written attrs
    simp only [List.length_append]
    omega
  obtain ⟨d, ds, hd⟩ := List.exists_cons_of_ne_nil hne
  have hslash : d ≠ '/' := by
    rintro rfl
    have := hname '/' (by rw [hd]; exact List.mem_cons_self)
    exact absurd this (by decide)
  rw [hshape]
  simp only [eventStep, if_true]
  split
  next body hbody =>
    rw [hd, List.cons_append] at hbody
    injection hbody with hbody
    exact absurd hbody hslash
  · rw [hdrop, hread, htake]
    simp [hne]

theorem eventStep_stop {name : Text} (rest : Text) (hname : ∀ c ∈ name, isNameChar c = true) :
    eventStep (endTag name ++ rest) = (some (.stop name), some rest) := by
  have hsplit : splitOnce ['>'] (name ++ '>' :: rest) = some (name, rest) :=
    splitOnce_char rest (not_isNameChar_of_mem hname (by decide))
  have hall : name.all isNameChar = true := by simpa using hname
  simp only [endTag, List.cons_append, List.append_assoc, List.nil_append, eventStep, if_true,
    hsplit, hall]

theorem eventStep_text {raw content : Text} {rest : Text} (hne : raw ≠ []) (hless : '<' ∉ raw)
    (hresolves : resolve contentChar raw = some content)
    (hrest : rest = [] ∨ rest.head? = some '<') :
    eventStep (raw ++ rest) = (some (.text content), some rest) := by
  obtain ⟨c, cs, rfl⟩ := List.exists_cons_of_ne_nil hne
  have hc : c ≠ '<' := fun h => hless (h ▸ List.mem_cons_self)
  have hcs : ∀ d ∈ cs, decide (d ≠ '<') = true := by
    intro d hd
    simpa using fun h : d = '<' => hless (h ▸ List.mem_cons_of_mem _ hd)
  have hstop : rest.takeWhile (fun d => decide (d ≠ '<')) = [] ∧
      rest.dropWhile (fun d => decide (d ≠ '<')) = rest := by
    rcases hrest with rfl | hrest
    · simp
    · obtain ⟨tail, rfl⟩ : ∃ tail, rest = '<' :: tail := by
        cases rest with
        | nil => simp at hrest
        | cons d ds =>
          injection hrest with hrest
          exact ⟨ds, by rw [hrest]⟩
      simp
  show eventStep (c :: (cs ++ rest)) = _
  simp only [eventStep, if_neg hc]
  rw [List.takeWhile_append_of_pos hcs, List.dropWhile_append_of_pos hcs, hstop.1, hstop.2,
    List.append_nil, hresolves]
  rfl

/-- Two pieces of content do not follow each other. -/
def TextsApart : List Event → Prop
  | [] => True
  | [_] => True
  | e :: f :: rest => (e.isText = true → f.isText = false) ∧ TextsApart (f :: rest)

/-- **A text put together from pieces is read back as their events.** -/
theorem events_written {raws : List Text} {found : List Event} (h : List.Forall₂ Writes raws found)
    (happart : TextsApart found) : events raws.flatten = some found := by
  have hunfold : unfold eventStep raws.flatten = found.map some := by
    induction h with
    | nil => rfl
    | @cons raw e raws es hwrites hrest ih =>
      have hih := ih (by
        cases es with
        | nil => trivial
        | cons f es => exact happart.2)
      have hstep : eventStep (raw ++ raws.flatten) = (some e, some raws.flatten) := by
        cases hwrites with
        | start attrs hne hname hattrs => exact eventStep_start _ hne hname hattrs
        | stop hname => exact eventStep_stop _ hname
        | text hne hless hresolves =>
          refine eventStep_text hne hless hresolves ?_
          cases hrest with
          | nil => exact .inl rfl
          | cons hnext _ =>
            right
            rw [List.flatten_cons, List.head?_append_of_ne_nil _ hnext.ne_nil]
            exact hnext.head (happart.1 rfl)
      obtain ⟨a, as, ha⟩ := List.exists_cons_of_ne_nil hwrites.ne_nil
      rw [List.flatten_cons, ha, List.cons_append, unfold_cons eventStep_shrinks,
        ← List.cons_append, ← ha, hstep]
      simp [hih]
  rw [events, hunfold, mapM_id_some]

/-! ## §5. Putting documents together -/

/-- The event of a piece of content, if there is one. -/
def textEvents (raw content : Text) : List Event := if raw = [] then [] else [.text content]

theorem textEvents_literal {c : Char} {cs content : Text} :
    textEvents (c :: cs) content = [.text content] := if_neg (by simp)

/-- A part of a document that begins with a tag, and its events. -/
structure Reads (raw : Text) (found : List Event) : Prop where
  pieces : ∃ raws, raws.flatten = raw ∧ List.Forall₂ Writes raws found
  apart : TextsApart found
  opens : ∀ e ∈ found.head?, e.isText = false

theorem TextsApart.append {es fs : List Event} (he : TextsApart es) (hf : TextsApart fs)
    (hopens : ∀ e ∈ fs.head?, e.isText = false) : TextsApart (es ++ fs) := by
  induction es with
  | nil => exact hf
  | cons e es ih =>
    cases es with
    | nil =>
      cases fs with
      | nil => trivial
      | cons f fs => exact ⟨fun _ => hopens f rfl, hf⟩
    | cons e' es => exact ⟨he.1, ih he.2⟩

theorem Reads.nil : Reads [] [] :=
  ⟨⟨[], rfl, .nil⟩, trivial, by simp⟩

/-- **Parts follow each other.** -/
theorem Reads.append {a b : Text} {es fs : List Event} (ha : Reads a es) (hb : Reads b fs) :
    Reads (a ++ b) (es ++ fs) := by
  obtain ⟨as, rfl, has⟩ := ha.pieces
  obtain ⟨bs, rfl, hbs⟩ := hb.pieces
  refine ⟨⟨as ++ bs, by simp, List.rel_append has hbs⟩, ha.apart.append hb.apart hb.opens, ?_⟩
  intro e he
  cases es with
  | nil => exact hb.opens e he
  | cons e' es => exact ha.opens e he

/-- A piece of content as it is written, and what it is read as. -/
structure Content (raw content : Text) : Prop where
  less : '<' ∉ raw
  resolves : resolve contentChar raw = some content

theorem content_literal {text : Text} (h : ∀ c ∈ text, isLiteral c = true) : Content text text where
  less hc := (isLiteral_spec (h _ hc)).2.2.1 rfl
  resolves := resolve_literal fun c hc =>
    ⟨(isLiteral_spec (h c hc)).2.1, (isLiteral_spec (h c hc)).2.2.2.2.2⟩

/-- A tag, with the content that follows it. -/
theorem Reads.tag {raw content tail : Text} {e : Event} (hwrites : Writes raw e)
    (htag : e.isText = false) (hcontent : Content tail content) :
    Reads (raw ++ tail) (e :: textEvents tail content) := by
  cases tail with
  | nil =>
    refine ⟨⟨[raw], by simp, ?_⟩, ?_, ?_⟩
    · exact .cons hwrites .nil
    · trivial
    · intro e' he'
      obtain rfl : e = e' := by simpa using he'
      exact htag
  | cons c cs =>
    rw [textEvents_literal]
    refine ⟨⟨[raw, c :: cs], by simp, ?_⟩, ?_, ?_⟩
    · exact .cons hwrites (.cons (.text (by simp) hcontent.less hcontent.resolves) .nil)
    · exact ⟨fun h => absurd (htag.symm.trans h) (by simp), trivial⟩
    · intro e' he'
      obtain rfl : e = e' := by simpa using he'
      exact htag

/-- Whether a text is a name. -/
def isName (name : Text) : Bool := !name.isEmpty && name.all isNameChar

theorem isName_spec {name : Text} (h : isName name = true) :
    name ≠ [] ∧ ∀ c ∈ name, isNameChar c = true := by
  simpa [isName] using h

/-- A start tag and the content after it. -/
theorem Reads.startText {name tail content : Text} {attrs : List Attribute}
    (hname : isName name = true) (hattrs : ∀ a ∈ attrs, a.Ok) (hcontent : Content tail content) :
    Reads (startTag name attrs ++ tail)
      (.start name (attrs.map fun a => (a.name, a.value)) :: textEvents tail content) :=
  Reads.tag (.start attrs (isName_spec hname).1 (isName_spec hname).2 hattrs) rfl hcontent

/-- An end tag and the content after it. -/
theorem Reads.stopText {name tail content : Text} (hname : isName name = true)
    (hcontent : Content tail content) :
    Reads (endTag name ++ tail) (.stop name :: textEvents tail content) :=
  Reads.tag (.stop (isName_spec hname).2) rfl hcontent

theorem content_newline : Content ['\n'] ['\n'] := ⟨by decide, by decide⟩

theorem content_nil : Content [] [] := ⟨by decide, by decide⟩

/-- Parts one after the other, one for each of a list. -/
theorem Reads.flatMap {α : Type} {items : List α} {raw : α → Text} {found : α → List Event}
    (h : ∀ a ∈ items, Reads (raw a) (found a)) :
    Reads (items.flatMap raw) (items.flatMap found) := by
  induction items with
  | nil => exact Reads.nil
  | cons a items ih =>
    rw [List.flatMap_cons, List.flatMap_cons]
    exact (h a List.mem_cons_self).append (ih fun b hb => h b (List.mem_cons_of_mem _ hb))

theorem Reads.events {raw : Text} {found : List Event} (h : Reads raw found) :
    events raw = some found := by
  obtain ⟨raws, rfl, hraws⟩ := h.pieces
  exact events_written hraws h.apart

/-- Events that close every element they open. -/
def Balanced (es : List Event) : Prop :=
  ∀ open' stack rest, inside (open' :: stack) (es ++ rest) = inside (open' :: stack) rest

theorem Balanced.nil : Balanced [] := fun _ _ _ => rfl

theorem Balanced.text (content : Text) : Balanced [.text content] := fun _ _ _ => rfl

theorem Balanced.textEvents (raw content : Text) : Balanced (textEvents raw content) := by
  unfold Xml.textEvents
  split
  · exact Balanced.nil
  · exact Balanced.text content

theorem Balanced.append {es fs : List Event} (he : Balanced es) (hf : Balanced fs) :
    Balanced (es ++ fs) := by
  intro open' stack rest
  rw [List.append_assoc, he, hf]

theorem Balanced.element {es : List Event} (h : Balanced es) (name : Text)
    (attrs : List (Text × Text)) : Balanced (.start name attrs :: (es ++ [.stop name])) := by
  intro open' stack rest
  rw [List.cons_append, List.append_assoc]
  show inside (name :: open' :: stack) (es ++ (.stop name :: rest)) = _
  rw [h name (open' :: stack)]
  simp [inside]

theorem Balanced.flatMap {α : Type} {items : List α} {found : α → List Event}
    (h : ∀ a ∈ items, Balanced (found a)) : Balanced (items.flatMap found) := by
  induction items with
  | nil => exact Balanced.nil
  | cons a items ih =>
    rw [List.flatMap_cons]
    exact (h a List.mem_cons_self).append (ih fun b hb => h b (List.mem_cons_of_mem _ hb))

theorem Balanced.wellFormed {es : List Event} (h : Balanced es) (name : Text)
    (attrs : List (Text × Text)) :
    wellFormed (.start name attrs :: (es ++ [.stop name])) = true := by
  show inside [name] (es ++ [.stop name]) = true
  rw [h name []]
  simp [inside]

/-- **A document of well-nested events parses to them.** -/
theorem Reads.parse {raw : Text} {found : List Event} (h : Reads raw found)
    (hchars : ∀ c ∈ raw, isXmlChar c = true) (hnested : wellFormed found = true) :
    parse raw = some found := by
  have hall : raw.all isXmlChar = true := List.all_eq_true.mpr hchars
  rw [Xml.parse, if_pos hall, h.events]
  simp [hnested]

/-! ## §6. Tags and elements -/

/-- A tag without its values: what a document is made of. -/
inductive Tag where
  | start (name : Text) (attrs : List Text)
  | stop (name : Text)
  deriving Repr, DecidableEq

def Event.tag : Event → Option Tag
  | .start name attrs => some (.start name (attrs.map Prod.fst))
  | .stop name => some (.stop name)
  | .text _ => none

/-- The elements of a document with the names of their attributes. -/
def tags (found : List Event) : List Tag := found.filterMap Event.tag

theorem tags_append (es fs : List Event) : tags (es ++ fs) = tags es ++ tags fs :=
  List.filterMap_append

theorem tags_textEvents (raw content : Text) : tags (textEvents raw content) = [] := by
  unfold textEvents
  split <;> rfl

/-- The character data among events. -/
def content (found : List Event) : Text :=
  found.flatMap fun
    | .text t => t
    | _ => []

theorem content_textEvents {text : Text} : content (textEvents text text) = text := by
  unfold textEvents
  split
  next h => rw [h]; rfl
  · simp [content]

theorem parse_none {input : Text} {c : Char} (hmem : c ∈ input) (hc : isXmlChar c = false) :
    parse input = none := by
  have hall : ¬ input.all isXmlChar = true := by
    intro h
    rw [List.all_eq_true] at h
    rw [h c hmem] at hc
    cases hc
  rw [parse, if_neg hall]

end RefineId.Lib.Xml
