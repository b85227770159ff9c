/-
  RefineId.Mdns — names and records of an mDNS response.
  ════════════════════════════════════════════════════════════════════════════

  `crates/refineid-rapp-core/src/stream.rs` reads what arrives on the multicast group,
  sent by anyone on the network.  `parse_dns_name` keeps two offsets: its cursor, which a
  compression pointer moves anywhere, and the one behind the name where it started.

  Main results:
    • `nameLoop_isSome`     : the cursor stops, whatever the pointers do.
    • `parseDnsName_next`   : the offset returned is where the name ends, or zero when its
                              labels run out with the buffer.
    • `parseMdnsResponse_ne_panicked` : no index of the walk leaves the packet.
    • `progress_iff`        : names and records move forward but for names that run out.
-/
import RefineId.Ber
import RefineId.Lib.Loop
import RefineId.Lib.Search
import RefineId.Lib.Upsert
import RefineId.Lib.Utf8

namespace RefineId

namespace Mdns

open Lib

/-! ## §1. Names -/

/-- The locals of `parse_dns_name`. -/
structure NameState where
  offset : Nat
  labels : List Text
  jumped : Bool
  nextOffset : Nat
  jumps : Nat
  deriving Repr, DecidableEq

/-- The name and the offset behind it. -/
abbrev Name := Text × Nat

/-- `Some((labels.join("."), next_offset))`. -/
def NameState.result (s : NameState) : Option Name :=
  some (List.intercalate ['.'] s.labels, s.nextOffset)

/-- Both top bits set: a compression pointer. -/
def isPointer (b : UInt8) : Bool := b.toNat &&& 0xC0 = 0xC0

/-- Where a pointer leads. -/
def target (b b2 : UInt8) : Nat := (b.toNat &&& 0x3F) <<< 8 ||| b2.toNat

/-- The label behind its length octet at `offset`, as text. -/
def labelAt (buf : Bytes) (offset : Nat) (b : UInt8) : Option Text :=
  if buf.length < offset + 1 + b.toNat then none
  else fromUtf8 ((buf.drop (offset + 1)).take b.toNat)

/-- One turn of the loop of `parse_dns_name`. -/
def nameTurn (buf : Bytes) (s : NameState) : Turn NameState (Option Name) :=
  match buf[s.offset]? with
  | none => .done s.result
  | some b =>
    if b = 0 then
      .done (if s.jumped then s else { s with nextOffset := s.offset + 1 }).result
    else if isPointer b then
      if 10 < s.jumps then .done none
      else
        match buf[s.offset + 1]? with
        | none => .done none
        | some b2 =>
          .next { s with
            offset := target b b2
            jumped := true
            nextOffset := if s.jumped then s.nextOffset else s.offset + 2
            jumps := s.jumps + 1 }
    else
      match labelAt buf s.offset b with
      | none => .done none
      | some label =>
        .next { s with
          offset := s.offset + 1 + b.toNat
          labels := s.labels ++ [label.map Char.toLower] }

/-- The locals before the first turn. -/
def NameState.start (offset : Nat) : NameState := ⟨offset, [], false, 0, 0⟩

/-- Turns enough for every name of the buffer. -/
def nameFuel (buf : Bytes) : Nat := 12 * (buf.length + 1) + 1

/-- The loop of `parse_dns_name`; `none` when it does not stop. -/
def nameLoop (buf : Bytes) (offset : Nat) : Option (Option Name) :=
  loop (nameTurn buf) (nameFuel buf) (.start offset)

/-- `parse_dns_name`. -/
def parseDnsName (buf : Bytes) (offset : Nat) : Option Name := (nameLoop buf offset).join

/-! ## §2. Records -/

/-- `Ipv4Addr`. -/
structure Ipv4Addr where
  a : UInt8
  b : UInt8
  c : UInt8
  d : UInt8
  deriving Repr, DecidableEq

/-- What an SRV record says of an instance, and who answered. -/
structure Service where
  port : Nat
  host : Text
  responder : Option Ipv4Addr
  deriving Repr, DecidableEq

/-- `MdnsRecords`; the three maps are kept by name. -/
structure MdnsRecords where
  instances : List Text
  services : List (Text × Service)
  texts : List (Text × List (Text × Text))
  addresses : List (Text × Ipv4Addr)
  deriving Repr, DecidableEq

/-- `STREAM_SERVICE_TYPE`. -/
def streamServiceType : Text := chars "_refineid-stream._tcp.local"

def rrTypeA : Nat := 1
def rrTypePtr : Nat := 12
def rrTypeTxt : Nat := 16
def rrTypeSrv : Nat := 33
def dnsHeaderBytes : Nat := 12
def rrFixedBytes : Nat := 10
def srvFixedBytes : Nat := 6

/-- One turn of the loop of `parse_txt`, on the offset and the entries so far. -/
def txtTurn (rdata : Bytes) (s : Nat × List (Text × Text)) :
    Turn (Nat × List (Text × Text)) (List (Text × Text)) :=
  match rdata[s.1]? with
  | none => .done s.2
  | some b =>
    if rdata.length < s.1 + 1 + b.toNat then .done s.2
    else
      let entries :=
        match fromUtf8 ((rdata.drop (s.1 + 1)).take b.toNat) with
        | none => []
        | some text => if text.isEmpty then [] else [(splitOnce ['='] text).getD (text, [])]
      .next (s.1 + 1 + b.toNat, s.2 ++ entries)

/-- `parse_txt`. -/
def parseTxt (rdata : Bytes) : List (Text × Text) :=
  (loop (txtTurn rdata) (rdata.length + 1) (0, [])).getD []

/-- `u16::from_be_bytes([data[i], data[i + 1]])`; `none` where an index panics. -/
def u16At (data : Bytes) (i : Nat) : Option Nat :=
  match data[i]?, data[i + 1]? with
  | some hi, some lo => some (hi.toNat * 256 + lo.toNat)
  | _, _ => none

/-- The arms of the match on the record's type; `none` where an index panics. -/
def MdnsRecords.take (records : MdnsRecords) (data : Bytes) (responder : Option Ipv4Addr)
    (name : Text) (rtype start finish : Nat) : Option MdnsRecords :=
  let rdata := (data.drop start).take (finish - start)
  if rtype = rrTypePtr ∧ name = streamServiceType then
    match parseDnsName data start with
    | some (found, _) =>
      if found ∈ records.instances then some records
      else some { records with instances := records.instances ++ [found] }
    | none => some records
  else if rtype = rrTypeSrv ∧ srvFixedBytes ≤ rdata.length then
    match u16At rdata 4 with
    | none => none
    | some port =>
      match parseDnsName data (start + srvFixedBytes) with
      | some (host, _) =>
        some { records with
          services := upsert Prod.fst (name, ⟨port, host, responder⟩) records.services }
      | none => some records
  else if rtype = rrTypeTxt then
    some { records with texts := upsert Prod.fst (name, parseTxt rdata) records.texts }
  else if rtype = rrTypeA then
    match rdata with
    | [a, b, c, d] =>
      some { records with addresses := upsert Prod.fst (name, ⟨a, b, c, d⟩) records.addresses }
    | _ => some records
  else some records

/-- An entry of the packet whose name was read: where it starts, and the offset the name
returned. -/
structure Entry where
  start : Nat
  next : Nat
  deriving Repr, DecidableEq

/-- The locals of `parse_mdns_response`, and the entries it has read so far. -/
structure Walk where
  offset : Nat
  records : MdnsRecords
  entries : List Entry
  deriving Repr, DecidableEq

/-- How a turn of the walk leaves it. -/
inductive Outcome where
  | next (w : Walk)
  | returned (w : Walk)
  | panicked
  deriving Repr, DecidableEq

/-- One turn of the loop over the questions. -/
def questionTurn (data : Bytes) (w : Walk) : Outcome :=
  match parseDnsName data w.offset with
  | none => .returned w
  | some (_, next) =>
    .next { w with offset := next + 4, entries := w.entries ++ [⟨w.offset, next⟩] }

/-- One turn of the loop over the resource records. -/
def resourceTurn (data : Bytes) (responder : Option Ipv4Addr) (w : Walk) : Outcome :=
  match parseDnsName data w.offset with
  | none => .returned w
  | some (name, afterName) =>
    let w := { w with entries := w.entries ++ [⟨w.offset, afterName⟩] }
    if data.length < afterName + rrFixedBytes then .returned w
    else
      match u16At data afterName, u16At data (afterName + 8) with
      | some rtype, some length =>
        let start := afterName + rrFixedBytes
        let finish := start + length
        if data.length < finish then .returned w
        else
          match w.records.take data responder name rtype start finish with
          | none => .panicked
          | some records => .next { w with offset := finish, records := records }
      | _, _ => .panicked

/-- `for _ in 0..n`, up to the turn that leaves. -/
def turns (turn : Walk → Outcome) : Nat → Walk → Outcome
  | 0, w => .next w
  | n + 1, w =>
    match turn w with
    | .next w' => turns turn n w'
    | stop => stop

/-- `parse_mdns_response`. -/
def parseMdnsResponse (data : Bytes) (responder : Option Ipv4Addr) (records : MdnsRecords) :
    Outcome :=
  let w : Walk := ⟨dnsHeaderBytes, records, []⟩
  if data.length < dnsHeaderBytes then .returned w
  else
    match u16At data 4, u16At data 6, u16At data 8, u16At data 10 with
    | some questions, some answers, some authorities, some additional =>
      match turns (questionTurn data) questions w with
      | .next w' => turns (resourceTurn data responder) (answers + authorities + additional) w'
      | stop => stop
    | _, _, _, _ => .panicked

/-- The entries a walk has read when it ends. -/
def Outcome.entries : Outcome → List Entry
  | .next w | .returned w => w.entries
  | .panicked => []

/-! ## §3. The cursor of a name -/

theorem lt_of_getElem? {buf : Bytes} {i : Nat} {b : UInt8} (h : buf[i]? = some b) :
    i < buf.length :=
  (List.getElem?_eq_some_iff.mp h).1

theorem nameTurn_past {buf : Bytes} {s : NameState} (h : buf.length ≤ s.offset) :
    nameTurn buf s = .done s.result := by
  simp [nameTurn, List.getElem?_eq_none h]

theorem nameTurn_zero {buf : Bytes} {s : NameState} (h : buf[s.offset]? = some 0) :
    nameTurn buf s =
      .done (if s.jumped then s else { s with nextOffset := s.offset + 1 }).result := by
  simp [nameTurn, h]

theorem nameTurn_pointer {buf : Bytes} {s : NameState} {b : UInt8}
    (h : buf[s.offset]? = some b) (hp : isPointer b = true) :
    nameTurn buf s =
      if 10 < s.jumps then .done none
      else
        match buf[s.offset + 1]? with
        | none => .done none
        | some b2 =>
          .next { s with
            offset := target b b2
            jumped := true
            nextOffset := if s.jumped then s.nextOffset else s.offset + 2
            jumps := s.jumps + 1 } := by
  have h0 : b ≠ 0 := by
    intro h0
    subst h0
    exact absurd hp (by decide)
  simp [nameTurn, h, h0, hp]

theorem nameTurn_label {buf : Bytes} {s : NameState} {b : UInt8}
    (h : buf[s.offset]? = some b) (h0 : b ≠ 0) (hp : isPointer b = false) :
    nameTurn buf s =
      match labelAt buf s.offset b with
      | none => .done none
      | some label =>
        .next { s with
          offset := s.offset + 1 + b.toNat
          labels := s.labels ++ [label.map Char.toLower] } := by
  simp [nameTurn, h, h0, hp]

/-- What a turn that goes on has read: a pointer or a label. -/
theorem nameTurn_next {buf : Bytes} {s s' : NameState} (h : nameTurn buf s = .next s') :
    (∃ b b2, buf[s.offset]? = some b ∧ isPointer b = true ∧ buf[s.offset + 1]? = some b2 ∧
      s.jumps ≤ 10 ∧
      s' = { s with
        offset := target b b2
        jumped := true
        nextOffset := if s.jumped then s.nextOffset else s.offset + 2
        jumps := s.jumps + 1 }) ∨
    (∃ b label, buf[s.offset]? = some b ∧ b ≠ 0 ∧ isPointer b = false ∧
      labelAt buf s.offset b = some label ∧
      s' = { s with
        offset := s.offset + 1 + b.toNat
        labels := s.labels ++ [label.map Char.toLower] }) := by
  cases hb : buf[s.offset]? with
  | none =>
    rw [nameTurn_past (List.getElem?_eq_none_iff.mp hb)] at h
    exact absurd h (by simp)
  | some b =>
    by_cases h0 : b = 0
    · subst h0
      rw [nameTurn_zero hb] at h
      exact absurd h (by simp)
    · cases hp : isPointer b with
      | true =>
        rw [nameTurn_pointer hb hp] at h
        split at h
        · exact absurd h (by simp)
        next hj =>
          split at h
          · exact absurd h (by simp)
          next b2 hb2 =>
            injection h with h
            exact .inl ⟨b, b2, rfl, hp, hb2, by omega, h.symm⟩
      | false =>
        rw [nameTurn_label hb h0 hp] at h
        split at h
        · exact absurd h (by simp)
        next label hlabel =>
          injection h with h
          exact .inr ⟨b, label, rfl, h0, hp, hlabel, h.symm⟩

/-- The pointers left to follow weigh more than the bytes left to read. -/
def nameMeasure (buf : Bytes) (s : NameState) : Nat :=
  (11 - s.jumps) * (buf.length + 1) + (buf.length - s.offset)

theorem nameMeasure_drops (buf : Bytes) (s s' : NameState) (h : nameTurn buf s = .next s') :
    nameMeasure buf s' < nameMeasure buf s := by
  obtain ⟨b, b2, -, -, -, hj, rfl⟩ | ⟨b, label, hb, -, -, -, rfl⟩ := nameTurn_next h
  · have hsplit : 11 - s.jumps = (11 - (s.jumps + 1)) + 1 := by omega
    simp only [nameMeasure, hsplit, Nat.add_mul, Nat.one_mul]
    omega
  · have hlt := lt_of_getElem? hb
    simp only [nameMeasure]
    omega

theorem nameMeasure_start (buf : Bytes) (offset : Nat) :
    nameMeasure buf (.start offset) < nameFuel buf := by
  simp only [nameMeasure, nameFuel, NameState.start]
  omega

/-- **The cursor stops.** -/
theorem nameLoop_isSome (buf : Bytes) (offset : Nat) :
    ∃ result, nameLoop buf offset = some result :=
  loop_isSome (nameMeasure buf) (nameMeasure_drops buf) (nameMeasure_start buf offset)

/-- The loop of `parse_txt` stops too: each turn takes a length octet. -/
theorem txtLoop_isSome (rdata : Bytes) :
    ∃ entries, loop (txtTurn rdata) (rdata.length + 1) (0, []) = some entries := by
  refine loop_isSome (fun s => rdata.length - s.1) (fun s s' h => ?_) (by simp)
  simp only [txtTurn] at h
  split at h
  · exact absurd h (by simp)
  next b hb =>
    have hlt := lt_of_getElem? hb
    split at h
    · exact absurd h (by simp)
    · injection h with h
      subst h
      simp only
      omega

theorem parseDnsName_of_runs {buf : Bytes} {offset : Nat} {r : Option Name}
    (h : Runs (nameTurn buf) (.start offset) r) : parseDnsName buf offset = r := by
  have hloop := loop_of_runs (nameMeasure buf) (nameMeasure_drops buf) h
    (nameMeasure_start buf offset)
  simp [parseDnsName, nameLoop, hloop]

theorem runs_of_parseDnsName {buf : Bytes} {offset : Nat} {n : Name}
    (h : parseDnsName buf offset = some n) : Runs (nameTurn buf) (.start offset) (some n) := by
  obtain ⟨r, hr⟩ := nameLoop_isSome buf offset
  have : r = some n := by simpa [parseDnsName, hr] using h
  subst this
  exact runs_of_loop hr

/-! ## §4. Where a name ends -/

/-- The name at an offset ends in front of another: labels, then the zero octet or a
pointer. -/
inductive NameEnds (buf : Bytes) : Nat → Nat → Prop where
  | zero {offset : Nat} (h : buf[offset]? = some 0) : NameEnds buf offset (offset + 1)
  | pointer {offset : Nat} {b b2 : UInt8} (h : buf[offset]? = some b) (hp : isPointer b = true)
      (h2 : buf[offset + 1]? = some b2) : NameEnds buf offset (offset + 2)
  | label {offset next : Nat} {b : UInt8} (h : buf[offset]? = some b) (h0 : b ≠ 0)
      (hp : isPointer b = false) (rest : NameEnds buf (offset + 1 + b.toNat) next) :
      NameEnds buf offset next

/-- The labels at an offset run out exactly with the buffer: neither the zero octet nor a
pointer follows them. -/
inductive RunsOut (buf : Bytes) : Nat → Prop where
  | past {offset : Nat} (h : buf.length ≤ offset) : RunsOut buf offset
  | label {offset : Nat} {b : UInt8} {text : Text} (h : buf[offset]? = some b) (h0 : b ≠ 0)
      (hp : isPointer b = false) (htext : labelAt buf offset b = some text)
      (rest : RunsOut buf (offset + 1 + b.toNat)) : RunsOut buf offset

/-- The name at an offset is read when no more than `jumps` pointers have to be followed
and every label is text. -/
inductive Readable (buf : Bytes) : Nat → Nat → Prop where
  | past {jumps offset : Nat} (h : buf.length ≤ offset) : Readable buf jumps offset
  | zero {jumps offset : Nat} (h : buf[offset]? = some 0) : Readable buf jumps offset
  | pointer {jumps offset : Nat} {b b2 : UInt8} (h : buf[offset]? = some b)
      (hp : isPointer b = true) (h2 : buf[offset + 1]? = some b2)
      (rest : Readable buf jumps (target b b2)) : Readable buf (jumps + 1) offset
  | label {jumps offset : Nat} {b : UInt8} {text : Text} (h : buf[offset]? = some b)
      (h0 : b ≠ 0) (hp : isPointer b = false) (htext : labelAt buf offset b = some text)
      (rest : Readable buf jumps (offset + 1 + b.toNat)) : Readable buf jumps offset

/-- The pointers `parse_dns_name` follows. -/
def maxJumps : Nat := 11

theorem NameEnds.advances {buf : Bytes} {offset next : Nat} (h : NameEnds buf offset next) :
    offset < next ∧ next ≤ buf.length := by
  induction h with
  | zero h =>
    have := lt_of_getElem? h
    omega
  | pointer _ _ h2 =>
    have := lt_of_getElem? h2
    omega
  | label _ _ _ _ ih => omega

/-- No name both ends and runs out. -/
theorem RunsOut.not_nameEnds {buf : Bytes} {offset next : Nat} (h : RunsOut buf offset) :
    ¬ NameEnds buf offset next := by
  induction h with
  | past hpast =>
    intro hends
    have := hends.advances
    omega
  | @label offset b text hb h0 hp _ _ ih =>
    intro hends
    cases hends with
    | zero h => exact h0 (Option.some.inj (hb.symm.trans h))
    | pointer h hp' _ =>
      obtain rfl := Option.some.inj (hb.symm.trans h)
      exact absurd hp' (by simp [hp])
    | label h _ _ rest =>
      obtain rfl := Option.some.inj (hb.symm.trans h)
      exact ih rest

theorem RunsOut.readable {buf : Bytes} {offset jumps : Nat} (h : RunsOut buf offset) :
    Readable buf jumps offset := by
  induction h with
  | past hpast => exact .past hpast
  | label hb h0 hp htext _ ih => exact .label hb h0 hp htext ih

theorem NameEnds.unique {buf : Bytes} {offset next next' : Nat} (h : NameEnds buf offset next)
    (h' : NameEnds buf offset next') : next = next' := by
  induction h with
  | zero h =>
    cases h' with
    | zero _ => rfl
    | pointer hb hp _ =>
      obtain rfl := Option.some.inj (h.symm.trans hb)
      exact absurd hp (by decide)
    | label hb h0 _ _ => exact absurd (Option.some.inj (hb.symm.trans h)) h0
  | pointer h hp _ =>
    cases h' with
    | zero hb =>
      obtain rfl := Option.some.inj (h.symm.trans hb)
      exact absurd hp (by decide)
    | pointer _ _ _ => rfl
    | label hb _ hp' _ =>
      obtain rfl := Option.some.inj (h.symm.trans hb)
      exact absurd hp (by simp [hp'])
  | label h h0 hp _ ih =>
    cases h' with
    | zero hb => exact absurd (Option.some.inj (h.symm.trans hb)) h0
    | pointer hb hp' _ =>
      obtain rfl := Option.some.inj (h.symm.trans hb)
      exact absurd hp' (by simp [hp])
    | label hb _ _ rest =>
      obtain rfl := Option.some.inj (h.symm.trans hb)
      exact ih rest

/-- What a run of turns has read, and the offset it returns: once a pointer was followed
the offset is settled, before that it is where the name ends. -/
theorem runs_spec {buf : Bytes} {s : NameState} {r : Option Name}
    (h : Runs (nameTurn buf) s r) {text : Text} {next : Nat} (hr : r = some (text, next)) :
    Readable buf (maxJumps - s.jumps) s.offset ∧
      (s.jumped = true → next = s.nextOffset) ∧
      (s.jumped = false →
        NameEnds buf s.offset next ∨ RunsOut buf s.offset ∧ next = s.nextOffset) := by
  induction h with
  | @done s r hdone =>
    subst hr
    cases hb : buf[s.offset]? with
    | none =>
      have hpast := List.getElem?_eq_none_iff.mp hb
      rw [nameTurn_past hpast] at hdone
      have hnext : next = s.nextOffset := by
        simp only [NameState.result, Turn.done.injEq, Option.some.injEq, Prod.mk.injEq] at hdone
        exact hdone.2.symm
      exact ⟨.past hpast, fun _ => hnext, fun _ => .inr ⟨.past hpast, hnext⟩⟩
    | some b =>
      by_cases h0 : b = 0
      · subst h0
        rw [nameTurn_zero hb] at hdone
        refine ⟨.zero hb, fun hj => ?_, fun hj => .inl ?_⟩
        · simp only [hj, if_true, NameState.result, Turn.done.injEq, Option.some.injEq,
            Prod.mk.injEq] at hdone
          exact hdone.2.symm
        · simp only [hj, NameState.result, Turn.done.injEq, Option.some.injEq,
            Prod.mk.injEq] at hdone
          exact hdone.2 ▸ .zero hb
      · cases hp : isPointer b with
        | true =>
          rw [nameTurn_pointer hb hp] at hdone
          split at hdone
          · exact absurd hdone (by simp)
          · split at hdone <;> exact absurd hdone (by simp)
        | false =>
          rw [nameTurn_label hb h0 hp] at hdone
          split at hdone <;> exact absurd hdone (by simp)
  | @next s s' r hnext _ ih =>
    obtain ⟨hread, hkept, hends⟩ := ih hr
    obtain ⟨b, b2, hb, hp, hb2, hj, rfl⟩ | ⟨b, label, hb, h0, hp, hlabel, rfl⟩ :=
      nameTurn_next hnext
    · have hsplit : maxJumps - s.jumps = (maxJumps - (s.jumps + 1)) + 1 := by
        simp only [maxJumps]
        omega
      have hsettled := hkept rfl
      refine ⟨hsplit ▸ .pointer hb hp hb2 hread, fun hjumped => ?_, fun hjumped => .inl ?_⟩
      · simpa [hjumped] using hsettled
      · have : next = s.offset + 2 := by simpa [hjumped] using hsettled
        exact this ▸ .pointer hb hp hb2
    · refine ⟨.label hb h0 hp hlabel hread, hkept, fun hjumped => ?_⟩
      obtain hrest | ⟨hrest, hzero⟩ := hends hjumped
      · exact .inl (.label hb h0 hp hrest)
      · exact .inr ⟨.label hb h0 hp hlabel hrest, hzero⟩

theorem parseDnsName_readable {buf : Bytes} {offset : Nat} {n : Name}
    (h : parseDnsName buf offset = some n) : Readable buf maxJumps offset :=
  (runs_spec (runs_of_parseDnsName h) rfl).1

/-- **The offset returned** is where the name ends, or zero when it runs out. -/
theorem parseDnsName_next {buf : Bytes} {offset next : Nat} {text : Text}
    (h : parseDnsName buf offset = some (text, next)) :
    NameEnds buf offset next ∨ RunsOut buf offset ∧ next = 0 :=
  (runs_spec (runs_of_parseDnsName h) rfl).2.2 rfl

/-- A readable name is read. -/
theorem Readable.runs {buf : Bytes} {jumps offset : Nat} (h : Readable buf jumps offset)
    (s : NameState) (hoffset : s.offset = offset) (hjumps : s.jumps + jumps = maxJumps) :
    ∃ n, Runs (nameTurn buf) s (some n) := by
  induction h generalizing s with
  | past hpast => exact ⟨_, .done (nameTurn_past (hoffset ▸ hpast))⟩
  | zero hb => exact ⟨_, .done (nameTurn_zero (hoffset ▸ hb))⟩
  | @pointer jumps offset b b2 hb hp hb2 _ ih =>
    subst hoffset
    have hj : ¬ 10 < s.jumps := by
      simp only [maxJumps] at hjumps
      omega
    have hturn := nameTurn_pointer hb hp
    simp only [hj, if_false, hb2] at hturn
    obtain ⟨n, hn⟩ := ih ⟨target b b2, s.labels, true,
      if s.jumped then s.nextOffset else s.offset + 2, s.jumps + 1⟩ rfl
      (by simp only [maxJumps] at hjumps ⊢; omega)
    exact ⟨n, .next hturn hn⟩
  | @label jumps offset b text hb h0 hp htext _ ih =>
    subst hoffset
    have hturn := nameTurn_label hb h0 hp
    simp only [htext] at hturn
    obtain ⟨n, hn⟩ := ih ⟨s.offset + 1 + b.toNat, s.labels ++ [text.map Char.toLower],
      s.jumped, s.nextOffset, s.jumps⟩ rfl hjumps
    exact ⟨n, .next hturn hn⟩

theorem Readable.parseDnsName {buf : Bytes} {offset : Nat} (h : Readable buf maxJumps offset) :
    ∃ text next, parseDnsName buf offset = some (text, next) := by
  obtain ⟨⟨text, next⟩, hrun⟩ := h.runs (.start offset) rfl rfl
  exact ⟨text, next, parseDnsName_of_runs hrun⟩

/-- A name that runs out returns the offset zero. -/
theorem RunsOut.parseDnsName {buf : Bytes} {offset : Nat} (h : RunsOut buf offset) :
    ∃ text, parseDnsName buf offset = some (text, 0) := by
  obtain ⟨text, next, hparse⟩ := h.readable.parseDnsName
  obtain hends | ⟨-, hzero⟩ := parseDnsName_next hparse
  · exact absurd hends h.not_nameEnds
  · exact ⟨text, hzero ▸ hparse⟩

/-- A name moves forward unless it runs out. -/
theorem parseDnsName_advances {buf : Bytes} {offset next : Nat} {text : Text}
    (h : parseDnsName buf offset = some (text, next)) (hout : ¬ RunsOut buf offset) :
    NameEnds buf offset next := by
  obtain hends | ⟨hruns, -⟩ := parseDnsName_next h
  · exact hends
  · exact absurd hruns hout

/-! ## §5. The walk over the entries -/

theorem u16At_isSome {data : Bytes} {i : Nat} (h : i + 2 ≤ data.length) :
    ∃ n, u16At data i = some n := by
  have h0 : i < data.length := by omega
  have h1 : i + 1 < data.length := by omega
  refine ⟨data[i].toNat * 256 + data[i + 1].toNat, ?_⟩
  simp only [u16At, List.getElem?_eq_getElem h0, List.getElem?_eq_getElem h1]

/-- The arms index within the record's data. -/
theorem MdnsRecords.take_isSome (records : MdnsRecords) (data : Bytes)
    (responder : Option Ipv4Addr) (name : Text) (rtype start finish : Nat) :
    ∃ records', records.take data responder name rtype start finish = some records' := by
  simp only [MdnsRecords.take]
  split
  · split
    · split <;> exact ⟨_, rfl⟩
    · exact ⟨_, rfl⟩
  · split
    next h =>
      obtain ⟨port, hport⟩ := u16At_isSome (i := 4) h.2
      rw [hport]
      split
      next heq => exact absurd heq (by simp)
      next => split <;> exact ⟨_, rfl⟩
    next =>
      split
      · exact ⟨_, rfl⟩
      · split
        · split <;> exact ⟨_, rfl⟩
        · exact ⟨_, rfl⟩

theorem questionTurn_none {data : Bytes} {w : Walk} (h : parseDnsName data w.offset = none) :
    questionTurn data w = .returned w := by
  simp only [questionTurn, h]

theorem questionTurn_some {data : Bytes} {w : Walk} {text : Text} {next : Nat}
    (h : parseDnsName data w.offset = some (text, next)) :
    questionTurn data w =
      .next { w with offset := next + 4, entries := w.entries ++ [⟨w.offset, next⟩] } := by
  simp only [questionTurn, h]

variable {responder : Option Ipv4Addr}

theorem resourceTurn_none {data : Bytes} {w : Walk} (h : parseDnsName data w.offset = none) :
    resourceTurn data responder w = .returned w := by
  simp only [resourceTurn, h]

/-- A record that fits the packet is taken, and the walk goes on behind it. -/
theorem resourceTurn_fits {data : Bytes} {w : Walk} {text : Text} {next length : Nat}
    (h : parseDnsName data w.offset = some (text, next))
    (hlength : u16At data (next + 8) = some length)
    (hfits : next + rrFixedBytes + length ≤ data.length) :
    ∃ records, resourceTurn data responder w =
      .next ⟨next + rrFixedBytes + length, records, w.entries ++ [⟨w.offset, next⟩]⟩ := by
  obtain ⟨rtype, hrtype⟩ := @u16At_isSome data next
    (by simp only [rrFixedBytes] at hfits; omega)
  have hfixed : ¬ data.length < next + rrFixedBytes := by omega
  have hend : ¬ data.length < next + rrFixedBytes + length := by omega
  obtain ⟨records, hrecords⟩ := w.records.take_isSome data responder text rtype
    (next + rrFixedBytes) (next + rrFixedBytes + length)
  exact ⟨records, by simp only [resourceTurn, h, hfixed, if_false, hrtype, hlength, hend,
    hrecords]⟩

/-- A record whose name is read is entered, whether it fits or not. -/
theorem resourceTurn_some {data : Bytes} {w : Walk} {text : Text} {next : Nat}
    (h : parseDnsName data w.offset = some (text, next)) :
    resourceTurn data responder w =
        .returned { w with entries := w.entries ++ [⟨w.offset, next⟩] } ∨
      ∃ length records, u16At data (next + 8) = some length ∧
        next + rrFixedBytes + length ≤ data.length ∧
        resourceTurn data responder w =
          .next ⟨next + rrFixedBytes + length, records, w.entries ++ [⟨w.offset, next⟩]⟩ := by
  by_cases hfixed : data.length < next + rrFixedBytes
  · exact .inl (by simp only [resourceTurn, h, hfixed, if_true])
  · obtain ⟨rtype, hrtype⟩ := @u16At_isSome data next
      (by simp only [rrFixedBytes] at hfixed; omega)
    obtain ⟨length, hlength⟩ := @u16At_isSome data (next + 8)
      (by simp only [rrFixedBytes] at hfixed; omega)
    by_cases hend : data.length < next + rrFixedBytes + length
    · exact .inl (by simp only [resourceTurn, h, hfixed, if_false, hrtype, hlength, hend,
        if_true])
    · obtain ⟨records, hturn⟩ := resourceTurn_fits h hlength (by omega)
      exact .inr ⟨length, records, hlength, by omega, hturn⟩

/-- What holds where a turn goes on, and what holds where it leaves. -/
def Outcome.Keeps (inv : Walk → Prop) (post : Outcome → Prop) : Outcome → Prop
  | .next w => inv w
  | stop => post stop

/-- **Rule for the counted loops**: the invariant counts the turns to go. -/
theorem turns_keeps {turn : Walk → Outcome} (inv : Nat → Walk → Prop) (post : Outcome → Prop)
    (hturn : ∀ n w, inv (n + 1) w → (turn w).Keeps (inv n) post) {n : Nat} {w : Walk}
    (hw : inv n w) : (turns turn n w).Keeps (inv 0) post := by
  induction n generalizing w with
  | zero => exact hw
  | succ n ih =>
    have hstep := hturn n w hw
    simp only [turns]
    split
    next w' hw' =>
      rw [hw'] at hstep
      exact ih hstep
    next hne =>
      cases hout : turn w with
      | next w' => exact absurd hout (hne w')
      | returned w' => rwa [hout] at hstep
      | panicked => rwa [hout] at hstep

/-- Both loops, from a walk with so many questions and records to go. -/
def walkFrom (data : Bytes) (responder : Option Ipv4Addr) (questions resources : Nat)
    (w : Walk) : Outcome :=
  match turns (questionTurn data) questions w with
  | .next w' => turns (resourceTurn data responder) resources w'
  | stop => stop

/-- **Rule for the walk**, from the turns of its two loops. -/
theorem walkFrom_keeps {data : Bytes} (inv : Nat → Nat → Walk → Prop) (post : Outcome → Prop)
    (hquestion : ∀ q r w, inv (q + 1) r w → (questionTurn data w).Keeps (inv q r) post)
    (hresource : ∀ r w, inv 0 (r + 1) w →
      (resourceTurn data responder w).Keeps (inv 0 r) post)
    {q r : Nat} {w : Walk} (hw : inv q r w) :
    (walkFrom data responder q r w).Keeps (inv 0 0) post := by
  have hfirst := turns_keeps (fun n => inv n r) post (fun n => hquestion n r) hw
  unfold walkFrom
  split
  next w' hw' =>
    rw [hw'] at hfirst
    exact turns_keeps (inv 0) post hresource hfirst
  next hne =>
    cases hout : turns (questionTurn data) q w with
    | next w' => exact absurd hout (hne w')
    | returned w' => rwa [hout] at hfirst
    | panicked => rwa [hout] at hfirst

theorem questionTurn_keeps {data : Bytes} {w : Walk} {inv : Walk → Prop}
    {post : Outcome → Prop} (hnone : parseDnsName data w.offset = none → post (.returned w))
    (hsome : ∀ text next, parseDnsName data w.offset = some (text, next) →
      inv { w with offset := next + 4, entries := w.entries ++ [⟨w.offset, next⟩] }) :
    (questionTurn data w).Keeps inv post := by
  cases hparse : parseDnsName data w.offset with
  | none =>
    rw [questionTurn_none hparse]
    exact hnone hparse
  | some n =>
    rw [questionTurn_some hparse]
    exact hsome n.1 n.2 hparse

theorem resourceTurn_keeps {data : Bytes} {w : Walk} {inv : Walk → Prop}
    {post : Outcome → Prop} (hnone : parseDnsName data w.offset = none → post (.returned w))
    (hcut : ∀ text next, parseDnsName data w.offset = some (text, next) →
      post (.returned { w with entries := w.entries ++ [⟨w.offset, next⟩] }))
    (hsome : ∀ text next length records, parseDnsName data w.offset = some (text, next) →
      u16At data (next + 8) = some length → next + rrFixedBytes + length ≤ data.length →
      inv ⟨next + rrFixedBytes + length, records, w.entries ++ [⟨w.offset, next⟩]⟩) :
    (resourceTurn data responder w).Keeps inv post := by
  cases hparse : parseDnsName data w.offset with
  | none =>
    rw [resourceTurn_none hparse]
    exact hnone hparse
  | some n =>
    obtain hturn | ⟨length, records, hlength, hfits, hturn⟩ :=
      @resourceTurn_some responder _ _ _ _ hparse
    · rw [hturn]
      exact hcut n.1 n.2 hparse
    · rw [hturn]
      exact hsome n.1 n.2 length records hparse hlength hfits

/-- The walk of a packet that has a header. -/
theorem parseMdnsResponse_eq {data : Bytes} (h : dnsHeaderBytes ≤ data.length)
    (records : MdnsRecords) :
    ∃ questions answers authorities additional, u16At data 4 = some questions ∧
      u16At data 6 = some answers ∧ u16At data 8 = some authorities ∧
      u16At data 10 = some additional ∧
      parseMdnsResponse data responder records =
        walkFrom data responder questions (answers + authorities + additional)
          ⟨dnsHeaderBytes, records, []⟩ := by
  have hheader : ∀ i, i + 2 ≤ 12 → ∃ n, u16At data i = some n := fun i hi =>
    u16At_isSome (by simp only [dnsHeaderBytes] at h; omega)
  obtain ⟨q, hq⟩ := hheader 4 (by omega)
  obtain ⟨a, ha⟩ := hheader 6 (by omega)
  obtain ⟨b, hb⟩ := hheader 8 (by omega)
  obtain ⟨c, hc⟩ := hheader 10 (by omega)
  have hlong : ¬ data.length < dnsHeaderBytes := by omega
  refine ⟨q, a, b, c, hq, ha, hb, hc, ?_⟩
  simp only [parseMdnsResponse, walkFrom, hlong, if_false, hq, ha, hb, hc]

theorem parseMdnsResponse_short {data : Bytes} (h : data.length < dnsHeaderBytes)
    (records : MdnsRecords) :
    parseMdnsResponse data responder records = .returned ⟨dnsHeaderBytes, records, []⟩ := by
  simp only [parseMdnsResponse, h, if_true]

/-- **No index leaves the packet.** -/
theorem parseMdnsResponse_ne_panicked (data : Bytes) (records : MdnsRecords) :
    parseMdnsResponse data responder records ≠ .panicked := by
  by_cases h : data.length < dnsHeaderBytes
  · rw [parseMdnsResponse_short h]
    simp
  · obtain ⟨q, a, b, c, -, -, -, -, heq⟩ :=
      @parseMdnsResponse_eq responder _ (Nat.le_of_not_lt h) records
    have hkeeps := @walkFrom_keeps responder data (fun _ _ _ => True)
      (· ≠ .panicked) (fun q r w _ => questionTurn_keeps (fun _ => by simp) (by simp))
      (fun r w _ => resourceTurn_keeps (fun _ => by simp) (by simp) (by simp))
      q (a + b + c) ⟨dnsHeaderBytes, records, []⟩ trivial
    rw [heq]
    intro hpanicked
    rw [hpanicked] at hkeeps
    exact hkeeps rfl

/-! ## §6. Progress -/

/-- With so many questions and records to go, the packet has its next entry at an offset:
the first behind the header, each further one behind an entry that ends. -/
inductive Reached (data : Bytes) : Nat → Nat → Nat → Prop where
  | first {questions answers authorities additional : Nat}
      (hheader : dnsHeaderBytes ≤ data.length) (hquestions : u16At data 4 = some questions)
      (hanswers : u16At data 6 = some answers) (hauthorities : u16At data 8 = some authorities)
      (hadditional : u16At data 10 = some additional) :
      Reached data questions (answers + authorities + additional) dnsHeaderBytes
  | question {questions resources offset next : Nat}
      (before : Reached data (questions + 1) resources offset)
      (hread : Readable data maxJumps offset) (hends : NameEnds data offset next) :
      Reached data questions resources (next + 4)
  | record {resources offset next length : Nat}
      (before : Reached data 0 (resources + 1) offset)
      (hread : Readable data maxJumps offset) (hends : NameEnds data offset next)
      (hlength : u16At data (next + 8) = some length)
      (hfits : next + rrFixedBytes + length ≤ data.length) :
      Reached data 0 resources (next + rrFixedBytes + length)

/-- No name of the packet's entries runs out with the packet. -/
def Terminated (data : Bytes) : Prop :=
  ∀ questions resources offset, Reached data questions resources offset →
    0 < questions + resources → ¬ RunsOut data offset

/-- The entries of a walk move forward: each behind the header, its name within the packet
and in front of the next entry. -/
structure Forward (data : Bytes) (entries : List Entry) : Prop where
  header : ∀ e ∈ entries, dnsHeaderBytes ≤ e.start
  within : ∀ e ∈ entries, e.start < e.next ∧ e.next ≤ data.length
  ordered : entries.Pairwise fun e f => e.next < f.start

theorem Forward.nil (data : Bytes) : Forward data [] :=
  ⟨by simp, by simp, .nil⟩

/-- One more entry, behind those before it. -/
theorem Forward.concat {data : Bytes} {entries : List Entry} (h : Forward data entries)
    {offset next : Nat} (hheader : dnsHeaderBytes ≤ offset) (hends : NameEnds data offset next)
    (hbehind : ∀ e ∈ entries, e.next < offset) :
    Forward data (entries ++ [⟨offset, next⟩]) := by
  constructor
  · intro e he
    obtain he | he := List.mem_append.mp he
    · exact h.header e he
    · rw [List.mem_singleton.mp he]
      exact hheader
  · intro e he
    obtain he | he := List.mem_append.mp he
    · exact h.within e he
    · rw [List.mem_singleton.mp he]
      exact hends.advances
  · refine List.pairwise_append.mpr ⟨h.ordered, List.pairwise_singleton _ _, ?_⟩
    intro e he f hf
    rw [List.mem_singleton.mp hf]
    exact hbehind e he

/-- The walk so far: at an offset the packet has an entry at, all entries in front of it. -/
structure OnCourse (data : Bytes) (questions resources : Nat) (w : Walk) : Prop where
  reached : Reached data questions resources w.offset
  header : dnsHeaderBytes ≤ w.offset
  behind : ∀ e ∈ w.entries, e.next < w.offset
  forward : Forward data w.entries

/-- An entry whose name ends keeps the walk on course. -/
theorem OnCourse.entry {data : Bytes} {q r q' r' : Nat} {w : Walk} (h : OnCourse data q r w)
    {next offset : Nat} (hends : NameEnds data w.offset next) (hoffset : next < offset)
    (hreached : Reached data q' r' offset) (records : MdnsRecords) :
    OnCourse data q' r' ⟨offset, records, w.entries ++ [⟨w.offset, next⟩]⟩ := by
  have hadvances := hends.advances
  have hheader := h.header
  refine ⟨hreached, ?_, ?_, h.forward.concat hheader hends h.behind⟩
  · simp only
    omega
  · intro e he
    obtain he | he := List.mem_append.mp he
    · have := h.behind e he
      simp only
      omega
    · rw [List.mem_singleton.mp he]
      exact hoffset

/-- Where the names are terminated every walk moves forward. -/
theorem walkFrom_forward {data : Bytes} (hterminated : Terminated data) {q r : Nat} {w : Walk}
    (hw : OnCourse data q r w) : Forward data (walkFrom data responder q r w).entries := by
  have hquestion : ∀ q r w, OnCourse data (q + 1) r w →
      (questionTurn data w).Keeps (OnCourse data q r) fun out => Forward data out.entries := by
    intro q r w h
    have hout := hterminated _ _ _ h.reached (by omega)
    refine questionTurn_keeps (fun _ => h.forward) fun text next hparse => ?_
    have hends := parseDnsName_advances hparse hout
    exact h.entry hends (by omega)
      (.question h.reached (parseDnsName_readable hparse) hends) w.records
  have hresource : ∀ r w, OnCourse data 0 (r + 1) w →
      (resourceTurn data responder w).Keeps (OnCourse data 0 r)
        fun out => Forward data out.entries := by
    intro r w h
    have hout := hterminated _ _ _ h.reached (by omega)
    refine resourceTurn_keeps (fun _ => h.forward) (fun text next hparse => ?_)
      (fun text next length records hparse hlength hfits => ?_)
    · exact h.forward.concat h.header (parseDnsName_advances hparse hout) h.behind
    · have hends := parseDnsName_advances hparse hout
      exact h.entry hends (by simp only [rrFixedBytes]; omega)
        (.record h.reached (parseDnsName_readable hparse) hends hlength hfits) records
  have hkeeps := walkFrom_keeps (OnCourse data) (fun out => Forward data out.entries)
    hquestion hresource hw
  cases hout : walkFrom data responder q r w with
  | next w' =>
    rw [hout] at hkeeps
    exact OnCourse.forward hkeeps
  | returned w' =>
    rw [hout] at hkeeps
    exact hkeeps
  | panicked => exact .nil data

/-- The walk comes by every offset the packet has an entry at. -/
theorem Reached.walk {data : Bytes} {q r offset : Nat} (h : Reached data q r offset)
    (records : MdnsRecords) :
    ∃ w, w.offset = offset ∧
      parseMdnsResponse data responder records = walkFrom data responder q r w := by
  induction h with
  | first hheader hq ha hb hc =>
    obtain ⟨q, a, b, c, hq', ha', hb', hc', heq⟩ :=
      @parseMdnsResponse_eq responder _ hheader records
    obtain rfl := Option.some.inj (hq.symm.trans hq')
    obtain rfl := Option.some.inj (ha.symm.trans ha')
    obtain rfl := Option.some.inj (hb.symm.trans hb')
    obtain rfl := Option.some.inj (hc.symm.trans hc')
    exact ⟨_, rfl, heq⟩
  | @question q r offset next _ hread hends ih =>
    obtain ⟨w, hoffset, heq⟩ := ih
    subst hoffset
    obtain ⟨text, next', hparse⟩ := hread.parseDnsName
    obtain rfl := hends.unique (parseDnsName_advances hparse fun hout => hout.not_nameEnds hends)
    refine ⟨{ w with offset := next + 4, entries := w.entries ++ [⟨w.offset, next⟩] }, rfl, ?_⟩
    rw [heq]
    simp only [walkFrom, turns, questionTurn_some hparse]
  | @record r offset next length _ hread hends hlength hfits ih =>
    obtain ⟨w, hoffset, heq⟩ := ih
    subst hoffset
    obtain ⟨text, next', hparse⟩ := hread.parseDnsName
    obtain rfl := hends.unique (parseDnsName_advances hparse fun hout => hout.not_nameEnds hends)
    obtain ⟨records', hturn⟩ :=
      @resourceTurn_fits responder _ _ _ _ _ hparse hlength hfits
    refine ⟨⟨next + rrFixedBytes + length, records', w.entries ++ [⟨w.offset, next⟩]⟩, rfl, ?_⟩
    rw [heq]
    simp only [walkFrom, turns, hturn]

/-- The entry a walk comes by is among those it has read when it ends. -/
theorem walkFrom_enters {data : Bytes} {e : Entry} {text : Text}
    (hparse : parseDnsName data e.start = some (text, e.next)) {q r : Nat} {w : Walk}
    (hw : w.offset = e.start) (hleft : 0 < q + r)
    (hpanic : walkFrom data responder q r w ≠ .panicked) :
    e ∈ (walkFrom data responder q r w).entries := by
  -- until its turn comes the entry is ahead, from then on it is entered
  let inv : Nat → Nat → Walk → Prop := fun q r w =>
    e ∈ w.entries ∨ 0 < q + r ∧ w.offset = e.start
  let post : Outcome → Prop := fun out => e ∈ out.entries
  have hnow : ∀ {q r w}, inv q r w → ∀ text' next,
      parseDnsName data w.offset = some (text', next) → e ∈ w.entries ++ [⟨w.offset, next⟩] := by
    intro q r w h text' next hparse'
    obtain h | ⟨-, h⟩ := h
    · exact List.mem_append_left _ h
    · rw [h, hparse] at hparse'
      simp only [Option.some.injEq, Prod.mk.injEq] at hparse'
      rw [← hparse'.2, h]
      exact List.mem_append_right _ (List.mem_singleton.mpr rfl)
  have hnone : ∀ {q r w}, inv q r w → parseDnsName data w.offset = none → e ∈ w.entries := by
    intro q r w h hparse'
    obtain h | ⟨-, h⟩ := h
    · exact h
    · rw [h, hparse] at hparse'
      exact absurd hparse' (by simp)
  have hkeeps := @walkFrom_keeps responder data inv post
    (fun q r w h => questionTurn_keeps (hnone h) fun text' next hp => .inl (hnow h text' next hp))
    (fun r w h => resourceTurn_keeps (hnone h) (hnow h)
      fun text' next _ _ hp _ _ => .inl (hnow h text' next hp))
    q r w (.inr ⟨hleft, hw⟩)
  cases hout : walkFrom data responder q r w with
  | next w' =>
    rw [hout] at hkeeps
    obtain h | ⟨h, -⟩ := hkeeps
    · exact h
    · exact absurd h (by omega)
  | returned w' =>
    rw [hout] at hkeeps
    exact hkeeps
  | panicked => exact absurd hout hpanic

/-- Where some name runs out, the walk goes back to the start of the packet. -/
theorem not_forward_of_runsOut {data : Bytes} {q r offset : Nat} (h : Reached data q r offset)
    (hleft : 0 < q + r) (hout : RunsOut data offset) (records : MdnsRecords) :
    ¬ Forward data (parseMdnsResponse data responder records).entries := by
  intro hforward
  obtain ⟨text, hparse⟩ := hout.parseDnsName
  obtain ⟨w, hoffset, heq⟩ := @Reached.walk responder _ _ _ _ h records
  have hpanic := @parseMdnsResponse_ne_panicked responder data records
  rw [heq] at hpanic hforward
  have hmem := walkFrom_enters (e := ⟨offset, 0⟩) hparse hoffset hleft hpanic
  exact absurd (hforward.within _ hmem).1 (by simp)

theorem parseMdnsResponse_forward {data : Bytes} (hterminated : Terminated data)
    (records : MdnsRecords) :
    Forward data (parseMdnsResponse data responder records).entries := by
  by_cases h : data.length < dnsHeaderBytes
  · rw [parseMdnsResponse_short h]
    exact .nil data
  · have hheader := Nat.le_of_not_lt h
    obtain ⟨q, a, b, c, hq, ha, hb, hc, heq⟩ :=
      @parseMdnsResponse_eq responder _ hheader records
    rw [heq]
    exact walkFrom_forward hterminated
      ⟨.first hheader hq ha hb hc, Nat.le_refl _, by simp, .nil data⟩

/-- A name read at an offset moves forward, within the buffer. -/
def Advances (buf : Bytes) (start : Nat) : Prop :=
  ∀ text next, parseDnsName buf start = some (text, next) → start < next ∧ next ≤ buf.length

theorem advances_iff {buf : Bytes} {start : Nat} : Advances buf start ↔ ¬ RunsOut buf start := by
  constructor
  · intro h hout
    obtain ⟨text, hparse⟩ := hout.parseDnsName
    exact absurd (h text 0 hparse).1 (by omega)
  · intro h text next hparse
    exact (parseDnsName_advances hparse h).advances

/-- **Progress.** Every name ends and no index leaves the packet; a name moves forward
exactly unless it runs out with the buffer, and the entries of a packet exactly when none of
their names does. -/
theorem progress_iff (buf : Bytes) (start : Nat) (data : Bytes) (responder : Option Ipv4Addr)
    (records : MdnsRecords) :
    (∃ result, nameLoop buf start = some result) ∧ (Advances buf start ↔ ¬ RunsOut buf start) ∧
      parseMdnsResponse data responder records ≠ .panicked ∧
      (Forward data (parseMdnsResponse data responder records).entries ↔ Terminated data) := by
  refine ⟨nameLoop_isSome buf start, advances_iff, parseMdnsResponse_ne_panicked data records,
    fun hforward => ?_, fun hterminated => parseMdnsResponse_forward hterminated records⟩
  intro q r offset hreached hleft hout
  exact not_forward_of_runsOut hreached hleft hout records hforward

/-- One record, named by the single label that ends the packet.  The offset zero takes the
header for its fixed part. -/
def headerRecord : Bytes := [0, 16, 0, 0, 0, 0, 0, 1, 0, 0, 0, 0, 1, 97]

theorem headerRecord_walk :
    parseMdnsResponse headerRecord none ⟨[], [], [], []⟩ =
      .next ⟨10, ⟨[], [], [(['a'], [])], []⟩, [⟨12, 0⟩]⟩ := by
  decide +kernel

/-- A name at the end of its buffer returns the offset zero, and a packet that ends so has
its header read as a record. -/
theorem unterminated_name_returns_zero :
    parseDnsName [1, 97] 0 = some (['a'], 0) ∧
      (¬ ∀ buf start, start < buf.length → Advances buf start) ∧
      ¬ ∀ data responder records,
        Forward data (parseMdnsResponse data responder records).entries := by
  have hname : parseDnsName [1, 97] 0 = some (['a'], 0) := by decide
  refine ⟨hname, fun h => ?_, fun h => ?_⟩
  · exact absurd (h [1, 97] 0 (by decide) ['a'] 0 hname).1 (by decide)
  · have hforward := h headerRecord none ⟨[], [], [], []⟩
    rw [headerRecord_walk] at hforward
    exact absurd (hforward.within ⟨12, 0⟩ (by decide)).1 (by decide)

end Mdns

end RefineId
