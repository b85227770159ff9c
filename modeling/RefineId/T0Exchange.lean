/-
  RefineId.T0Exchange — one command over a T=0 reader.
  ════════════════════════════════════════════════════════════════════════════

  `crates/refineid-lib-pcsc/src/lib.rs`: a T=0 card may answer `6Cxx` for a wrong `Le` and
  `61xx` when it has more to give.  `run_t0_exchange` resends a command once if its builder
  permitted that, and collects the rest with GET RESPONSE.

  A card is any function from the transmissions so far and the next one to an answer; an
  exchange gives its result together with everything it put on the wire.

  Main results:
    • `chain_total`          : the GET RESPONSE chain ends, whatever the card answers.
    • `runT0Exchange_sent`   : a command goes out once, or a second time with the `Le` the
                               card asked for; everything else is a GET RESPONSE.
    • `transmitOutcome_once` : through the reader's own trimming too, a command that may not
                               be corrected is presented once.
    • `runT0Exchange_assembles` : every exchange ends, and a response it returns is put
                               together from the answers to the command as last sent.
-/
import RefineId.Lib.Loop
import RefineId.Transport

namespace RefineId

namespace T0Exchange

open Lib

/-! ## §1. Cards and answers -/

/-- `PcscError`; `PE` is the `pcsc` crate's own error. -/
inductive PcscError (PE : Type) where
  | pcsc (e : PE)
  | transport (what : String)
  deriving Repr, DecidableEq

/-- `TransmitBreak`. -/
inductive TransmitBreak (PE : Type) where
  | outcome (o : TransportOutcome)
  | error (e : PcscError PE)
  deriving Repr, DecidableEq

/-- **Any card behind any reader**: what `T0Transmitter::transmit` returns, as a function
    of the transmissions before and the present one. -/
abbrev Transmitter (PE : Type) := List Bytes → Bytes → Except (TransmitBreak PE) Bytes

/-- How an exchange ends. -/
abbrev Ending (PE : Type) := Except (PcscError PE) TransportOutcome

/-- `EXTENDED_RESPONSE_DATA_MAX_BYTES`. -/
def extendedResponseDataMaxBytes : Nat := 65536

/-- `split_last_chunk::<2>`. -/
def splitLastChunk (response : Bytes) : Option (Bytes × UInt8 × UInt8) :=
  match response.reverse with
  | sw2 :: sw1 :: body => some (body.reverse, sw1, sw2)
  | _ => none

/-- `GetResponse::new(ApduClass::Plain, le).into_apdu()`. -/
def getResponse (le : UInt8) : CommandApdu :=
  (CommandApdu.new [0x00, 0xC0, 0x00, 0x00, le]).allowWrongLeRetry

/-- `t0_case3_from_short_case4`. -/
def t0Case3FromShortCase4 (apdu : CommandApdu) : Option CommandApdu := do
  let lc ← apdu.bytes[4]?
  if lc = 0 then none
  else if apdu.bytes.length ≠ 5 + lc.toNat + 1 then none
  else some (.new apdu.bytes.dropLast)

section
variable {PE : Type} (card : Transmitter PE)

/-- One transmission: the answer's body and status, or the way the exchange ends. -/
def transmit (log : List Bytes) (command : Bytes) :
    Except (Ending PE) (Bytes × UInt8 × UInt8) :=
  match card log command with
  | .error (.outcome o) => .error (.ok o)
  | .error (.error e) => .error (.error e)
  | .ok response =>
    match splitLastChunk response with
    | none => .error (.ok .protocolDesync)
    | some answer => .ok answer

/-! ## §2. The GET RESPONSE chain -/

/-- The chain's loop state, with the transmissions so far. -/
structure Chain where
  combined : Bytes
  nextLe : UInt8
  log : List Bytes

/-- One turn of the inner loop.  A turn that goes on has made progress. -/
def chainTurn (s : Chain) : Turn Chain (List Bytes × Ending PE) :=
  let command := (getResponse s.nextLe).bytes
  let log := s.log ++ [command]
  match transmit card s.log command with
  | .error ending => .done (log, ending)
  | .ok (body, sw1, sw2) =>
    if extendedResponseDataMaxBytes < s.combined.length + body.length then
      .done (log, .error (.transport "61xx GET RESPONSE chain exceeded 64 KiB"))
    else if sw1 = 0x61 then
      if body = [] then
        .done (log,
          .error (.transport "card signalled 61xx but returned no bytes (stalled chain)"))
      else .next ⟨s.combined ++ body, sw2, log⟩
    else .done (log, .ok (.response ⟨s.combined ++ body, sw1, sw2⟩))

/-- The inner loop.  Each turn that goes on adds to the body, so the ceiling bounds them. -/
def chain (s : Chain) : Option (List Bytes × Ending PE) :=
  loop (chainTurn card) (extendedResponseDataMaxBytes + 2) s

/-! ## §3. The exchange -/

/-- One turn of the outer loop: the command in hand and the transmissions so far. -/
def exchangeTurn (s : CommandApdu × List Bytes) :
    Turn (CommandApdu × List Bytes) (Option (List Bytes × Ending PE)) :=
  let (sent, before) := s
  let log := before ++ [sent.bytes]
  match transmit card before sent.bytes with
  | .error ending => .done (some (log, ending))
  | .ok (body, sw1, sw2) =>
    match (if sw1 = 0x6C then sent.correctedWrongLe sw2 else none) with
    | some corrected => .next (corrected, log)
    | none =>
      if sw1 = 0x61 then .done (chain card ⟨body, sw2, log⟩)
      else .done (some (log, .ok (.response ⟨body, sw1, sw2⟩)))

/-- `run_t0_exchange`: everything it sent, and how it ended. -/
def runT0Exchange (apdu : CommandApdu) : Option (List Bytes × Ending PE) :=
  (loop (exchangeTurn card) 3 (apdu, [])).join

/-- `PcscCard::transmit_outcome` inside its transaction; `t0` tells the reader's protocol. -/
def transmitOutcome (t0 : Bool) (apdu : CommandApdu) : Option (List Bytes × Ending PE) :=
  let t0Command := if t0 then t0Case3FromShortCase4 apdu else none
  runT0Exchange card (t0Command.getD apdu)

end

/-! ## §4. What the chain sends -/

/-- A GET RESPONSE of any length. -/
def IsGetResponse (command : Bytes) : Prop := ∃ le, command = [0x00, 0xC0, 0x00, 0x00, le]

theorem getResponse_isGetResponse (le : UInt8) : IsGetResponse (getResponse le).bytes := ⟨le, rfl⟩

section
variable {PE : Type} (card : Transmitter PE)

/-- **What a turn of the chain can do**: send one GET RESPONSE, and end or go on with a
    longer body below the ceiling. -/
theorem chainTurn_cases (s : Chain) :
    (∃ ending, chainTurn card s = .done (s.log ++ [(getResponse s.nextLe).bytes], ending)) ∨
    (∃ combined le, chainTurn card s
        = .next ⟨combined, le, s.log ++ [(getResponse s.nextLe).bytes]⟩ ∧
      s.combined.length < combined.length ∧ combined.length ≤ extendedResponseDataMaxBytes) := by
  cases hanswer : transmit card s.log (getResponse s.nextLe).bytes with
  | error ending => exact .inl ⟨ending, by simp only [chainTurn, hanswer]⟩
  | ok answer =>
    obtain ⟨body, sw1, sw2⟩ := answer
    by_cases hbig : extendedResponseDataMaxBytes < s.combined.length + body.length
    · left
      simp only [chainTurn, hanswer, if_pos hbig]
      exact ⟨_, rfl⟩
    · by_cases hmore : sw1 = 0x61
      · by_cases hbody : body = []
        · left
          simp only [chainTurn, hanswer, if_neg hbig, if_pos hmore, if_pos hbody]
          exact ⟨_, rfl⟩
        · refine .inr ⟨s.combined ++ body, sw2, ?_, ?_, ?_⟩
          · simp only [chainTurn, hanswer, if_neg hbig, if_pos hmore, if_neg hbody]
          · have hpos : 0 < body.length := List.length_pos_iff.mpr hbody
            rw [List.length_append]
            omega
          · rw [List.length_append]
            omega
      · left
        simp only [chainTurn, hanswer, if_neg hbig, if_neg hmore]
        exact ⟨_, rfl⟩

/-- **The chain ends.** -/
theorem chain_total (s : Chain) : ∃ r, chain card s = some r := by
  refine loop_isSome (fun s => extendedResponseDataMaxBytes + 1 - s.combined.length) ?_ ?_
  · intro s s' hnext
    obtain ⟨ending, hdone⟩ | ⟨combined, le, hgo, hlonger, hmax⟩ := chainTurn_cases card s
    · rw [hdone] at hnext
      cases hnext
    · rw [hgo] at hnext
      injection hnext with hnext
      subst hnext
      show extendedResponseDataMaxBytes + 1 - combined.length
        < extendedResponseDataMaxBytes + 1 - s.combined.length
      omega
  · omega

/-- **The chain sends GET RESPONSE and nothing else.** -/
theorem chain_sent {s : Chain} {sent : List Bytes} {ending : Ending PE}
    (h : chain card s = some (sent, ending)) :
    ∃ gets, sent = s.log ++ gets ∧ ∀ g ∈ gets, IsGetResponse g := by
  refine loop_post
    (fun t : Chain => ∃ gets, t.log = s.log ++ gets ∧ ∀ g ∈ gets, IsGetResponse g)
    (fun r => ∃ gets, r.1 = s.log ++ gets ∧ ∀ g ∈ gets, IsGetResponse g) ?_ ?_
    ⟨[], by simp, by simp⟩ h
  · -- a turn that goes on has added one
    intro t t' ⟨gets, hlog, hgets⟩ hnext
    obtain ⟨ending, hdone⟩ | ⟨combined, le, hgo, -, -⟩ := chainTurn_cases card t
    · rw [hdone] at hnext
      cases hnext
    · rw [hgo] at hnext
      injection hnext with hnext
      subst hnext
      exact extend hlog hgets
  · intro t r ⟨gets, hlog, hgets⟩ hdone
    obtain ⟨ending, hend⟩ | ⟨combined, le, hgo, -, -⟩ := chainTurn_cases card t
    · rw [hend] at hdone
      injection hdone with hdone
      subst hdone
      exact extend hlog hgets
    · rw [hgo] at hdone
      cases hdone
where
  extend {t : Chain} {gets : List Bytes} (hlog : t.log = s.log ++ gets)
      (hgets : ∀ g ∈ gets, IsGetResponse g) :
      ∃ gets', t.log ++ [(getResponse t.nextLe).bytes] = s.log ++ gets' ∧
        ∀ g ∈ gets', IsGetResponse g := by
    refine ⟨gets ++ [(getResponse t.nextLe).bytes], by rw [hlog, List.append_assoc], ?_⟩
    intro g hg
    rcases List.mem_append.mp hg with hg | hg
    · exact hgets g hg
    · rw [List.mem_singleton.mp hg]
      exact getResponse_isGetResponse _

/-! ## §5. What the exchange sends -/

theorem splitLastChunk_eq {response body : Bytes} {sw1 sw2 : UInt8}
    (h : splitLastChunk response = some (body, sw1, sw2)) : response = body ++ [sw1, sw2] := by
  unfold splitLastChunk at h
  split at h
  next last before rest hrev =>
    injection h with h
    injection h with hbody hsw
    injection hsw with hsw1 hsw2
    rw [← List.reverse_reverse response, hrev, ← hbody, ← hsw1, ← hsw2]
    simp
  · cases h

/-- An answer that was read is what the card gave. -/
theorem transmit_ok {log : List Bytes} {command body : Bytes} {sw1 sw2 : UInt8}
    (h : transmit card log command = .ok (body, sw1, sw2)) :
    card log command = .ok (body ++ [sw1, sw2]) := by
  unfold transmit at h
  split at h
  · cases h
  · cases h
  next response hresponse =>
    split at h
    · cases h
    next answer hsplit =>
      injection h with h
      subst h
      rw [hresponse, splitLastChunk_eq hsplit]

theorem correctedWrongLe_some {sent corrected : CommandApdu} {le : UInt8}
    (h : sent.correctedWrongLe le = some corrected) :
    sent.wrongLeRetry = true ∧ corrected = ⟨sent.bytes.dropLast ++ [le], false⟩ := by
  unfold CommandApdu.correctedWrongLe at h
  split at h
  next hflag =>
    cases hb : sent.bytes with
    | nil => simp [hb] at h
    | cons b rest =>
      simp only [hb] at h
      injection h with h
      exact ⟨hflag, h.symm⟩
  · cases h

/-- **What a turn of the exchange can do**: end with the command sent and GET RESPONSEs
    after it, or take up the command with the `Le` of a `6Cxx` answer. -/
theorem exchangeTurn_cases (sent : CommandApdu) (before : List Bytes) :
    (∃ gets ending, exchangeTurn card (sent, before)
        = .done (some (before ++ sent.bytes :: gets, ending)) ∧ ∀ g ∈ gets, IsGetResponse g) ∨
    (∃ body sw2, sent.wrongLeRetry = true ∧
      card before sent.bytes = .ok (body ++ [0x6C, sw2]) ∧
      exchangeTurn card (sent, before)
        = .next (⟨sent.bytes.dropLast ++ [sw2], false⟩, before ++ [sent.bytes])) := by
  cases hanswer : transmit card before sent.bytes with
  | error ending =>
    left
    exact ⟨[], ending, by simp only [exchangeTurn, hanswer], by simp⟩
  | ok answer =>
    obtain ⟨body, sw1, sw2⟩ := answer
    cases hcorrect : (if sw1 = 0x6C then sent.correctedWrongLe sw2 else none) with
    | some corrected =>
      right
      simp only [Option.ite_none_right_eq_some] at hcorrect
      obtain ⟨rfl, hcorrect'⟩ := hcorrect
      obtain ⟨hflag, rfl⟩ := correctedWrongLe_some hcorrect'
      refine ⟨body, sw2, hflag, transmit_ok card hanswer, ?_⟩
      simp only [exchangeTurn, hanswer, if_true, hcorrect']
    | none =>
      left
      by_cases hmore : sw1 = 0x61
      · obtain ⟨⟨log, ending⟩, hchain⟩ := chain_total card ⟨body, sw2, before ++ [sent.bytes]⟩
        obtain ⟨gets, rfl, hgets⟩ := chain_sent card hchain
        refine ⟨gets, ending, ?_, hgets⟩
        simp only [exchangeTurn, hanswer, hcorrect, if_pos hmore, hchain, List.append_assoc,
          List.singleton_append]
      · refine ⟨[], .ok (.response ⟨body, sw1, sw2⟩), ?_, by simp⟩
        simp only [exchangeTurn, hanswer, hcorrect, if_neg hmore]

/-- A command whose `Le` may not be corrected goes out once, in any state of the wire. -/
theorem loop_unpermitted (sent : CommandApdu) (before : List Bytes) (fuel : Nat)
    (h : sent.wrongLeRetry = false) :
    ∃ gets ending, loop (exchangeTurn card) (fuel + 1) (sent, before)
        = some (some (before ++ sent.bytes :: gets, ending)) ∧ ∀ g ∈ gets, IsGetResponse g := by
  obtain ⟨gets, ending, hdone, hgets⟩ | ⟨body, sw2, hflag, -, -⟩ :=
    exchangeTurn_cases card sent before
  · exact ⟨gets, ending, by simp only [loop, hdone], hgets⟩
  · rw [h] at hflag
    cases hflag

/-- **Single presentation**: for every card the exchange ends, and what it has sent is the
    command once and then GET RESPONSEs only; or, if the command permits it and the card
    answered `6Cxx`, the command, the command with `xx` for its last octet, and then GET
    RESPONSEs only. -/
theorem runT0Exchange_sent (apdu : CommandApdu) :
    ∃ sent ending, runT0Exchange card apdu = some (sent, ending) ∧
      ∃ gets, (∀ g ∈ gets, IsGetResponse g) ∧
        (sent = apdu.bytes :: gets ∨
          (apdu.wrongLeRetry = true ∧ ∃ body sw2,
            card [] apdu.bytes = .ok (body ++ [0x6C, sw2]) ∧
            sent = apdu.bytes :: (apdu.bytes.dropLast ++ [sw2]) :: gets)) := by
  unfold runT0Exchange
  obtain ⟨gets, ending, hdone, hgets⟩ | ⟨body, sw2, hflag, hcard, hnext⟩ :=
    exchangeTurn_cases card apdu []
  · refine ⟨apdu.bytes :: gets, ending, ?_, gets, hgets, .inl rfl⟩
    simp only [loop, hdone, List.nil_append]
    rfl
  · obtain ⟨gets, ending, hrest, hgets⟩ := loop_unpermitted card
      ⟨apdu.bytes.dropLast ++ [sw2], false⟩ ([] ++ [apdu.bytes]) 1 rfl
    refine ⟨_, ending, ?_, gets, hgets, .inr ⟨hflag, body, sw2, hcard, rfl⟩⟩
    rw [loop, hnext]
    simp only [hrest]
    rfl

/-- A trimmed command has lost the permission to be corrected. -/
theorem t0Case3_unpermitted {apdu trimmed : CommandApdu}
    (h : t0Case3FromShortCase4 apdu = some trimmed) :
    trimmed = ⟨apdu.bytes.dropLast, false⟩ := by
  obtain ⟨lc, -, h⟩ := Option.bind_eq_some_iff.mp h
  simp only [Option.ite_none_left_eq_some] at h
  obtain ⟨-, -, h⟩ := h
  injection h with h
  exact h.symm

/-- **A command that may not be corrected is presented once**, as it is or without the `Le`
    the reader's protocol has no place for. -/
theorem transmitOutcome_once (t0 : Bool) {apdu : CommandApdu} (h : apdu.wrongLeRetry = false) :
    ∃ sent ending, transmitOutcome card t0 apdu = some (sent, ending) ∧
      ∃ gets, (∀ g ∈ gets, IsGetResponse g) ∧
        (sent = apdu.bytes :: gets ∨ sent = apdu.bytes.dropLast :: gets) := by
  unfold transmitOutcome runT0Exchange
  cases htrim : (if t0 then t0Case3FromShortCase4 apdu else none) with
  | none =>
    obtain ⟨gets, ending, hrun, hgets⟩ := loop_unpermitted card apdu [] 2 h
    exact ⟨apdu.bytes :: gets, ending, by simp only [Option.getD_none, hrun]; rfl, gets, hgets,
      .inl rfl⟩
  | some trimmed =>
    simp only [Option.ite_none_right_eq_some] at htrim
    rw [t0Case3_unpermitted htrim.2]
    obtain ⟨gets, ending, hrun, hgets⟩ :=
      loop_unpermitted card ⟨apdu.bytes.dropLast, false⟩ [] 2 rfl
    exact ⟨apdu.bytes.dropLast :: gets, ending, by simp only [Option.getD_some, hrun]; rfl, gets,
      hgets, .inr rfl⟩

end

/-! ## §6. What the exchange assembles -/

/-- `pcsc::Error`, as far as `PcscTransmitter` tells it apart. -/
inductive ReaderError (PE : Type) where
  | noSmartcard
  | removedCard
  | resetCard
  | other (e : PE)
  deriving Repr, DecidableEq

/-- What the reader leaves in the receive buffer: no more than the buffer holds. -/
structure Received where
  bytes : Bytes
  fits : bytes.length ≤ extendedResponseDataMaxBytes

/-- `PcscTransmitter::transmit`, over any reader and card. -/
def pcscTransmitter {PE : Type} (reader : List Bytes → Bytes → Except (ReaderError PE) Received) :
    Transmitter PE := fun log command =>
  match reader log command with
  | .ok received => .ok received.bytes
  | .error .noSmartcard => .error (.outcome .noCard)
  | .error .removedCard => .error (.outcome .readerRemoved)
  | .error .resetCard => .error (.outcome .cardReset)
  | .error (.other e) => .error (.error (.pcsc e))

section
variable {PE : Type}

/-- **A chain of answers**: the command's answer is the last one, or says `61xx` and is
    followed by the answers to a GET RESPONSE for `xx`. -/
inductive Answers (card : Transmitter PE) :
    List Bytes → Bytes → List Bytes → List Bytes → UInt8 → UInt8 → Prop where
  | last {log : List Bytes} {command body : Bytes} {sw1 sw2 : UInt8}
      (hanswer : card log command = .ok (body ++ [sw1, sw2])) (hlast : sw1 ≠ 0x61) :
      Answers card log command [command] [body] sw1 sw2
  | more {log sent bodies : List Bytes} {command body : Bytes} {le sw1 sw2 : UInt8}
      (hanswer : card log command = .ok (body ++ [0x61, le]))
      (hrest : Answers card (log ++ [command]) (getResponse le).bytes sent bodies sw1 sw2) :
      Answers card log command (command :: sent) (body :: bodies) sw1 sw2

/-- The last answer asks for no more. -/
theorem Answers.sw1_ne {card : Transmitter PE} {log sent bodies : List Bytes} {command : Bytes}
    {sw1 sw2 : UInt8} (h : Answers card log command sent bodies sw1 sw2) : sw1 ≠ 0x61 := by
  induction h with
  | last hanswer hlast => exact hlast
  | more hanswer hrest ih => exact ih

section
variable (card : Transmitter PE)

/-- What a break that is no response ends with. -/
theorem transmit_error {log : List Bytes} {command : Bytes} {r : ResponseApdu}
    (hbreak : ∀ log command r, card log command ≠ .error (.outcome (.response r))) :
    transmit card log command ≠ .error (.ok (.response r)) := by
  intro h
  unfold transmit at h
  split at h
  next o ho =>
    injection h with h
    injection h with h
    rw [h] at ho
    exact hbreak _ _ _ ho
  next e he =>
    injection h with h
    cases h
  next response hresponse =>
    split at h
    · injection h with h
      injection h with h
      cases h
    · cases h

/-- A turn that ends with a response has read the last answer of the chain. -/
theorem chainTurn_response {s : Chain} {log : List Bytes} {r : ResponseApdu}
    (hbreak : ∀ log command r, card log command ≠ .error (.outcome (.response r)))
    (h : chainTurn card s = .done (log, .ok (.response r))) :
    ∃ body, card s.log (getResponse s.nextLe).bytes = .ok (body ++ [r.sw1, r.sw2]) ∧
      r.sw1 ≠ 0x61 ∧ r.body = s.combined ++ body ∧
      r.body.length ≤ extendedResponseDataMaxBytes ∧
      log = s.log ++ [(getResponse s.nextLe).bytes] := by
  unfold chainTurn at h
  dsimp only at h
  split at h
  next ending hending =>
    -- a break is no response
    injection h with h
    obtain ⟨-, rfl⟩ := Prod.mk.inj h
    exact absurd hending (transmit_error card hbreak)
  next body sw1 sw2 hanswer =>
    split at h
    · injection h with h
      cases (Prod.mk.inj h).2
    next hsmall =>
      split at h
      · split at h
        · injection h with h
          cases (Prod.mk.inj h).2
        · cases h
      next hlast =>
        injection h with h
        obtain ⟨rfl, hr⟩ := Prod.mk.inj h
        injection hr with hr
        injection hr with hr
        subst hr
        refine ⟨body, transmit_ok card hanswer, hlast, rfl, ?_, rfl⟩
        rw [List.length_append]
        omega

/-- A turn that goes on has read an answer that says `61xx`. -/
theorem chainTurn_next {s s' : Chain} (h : chainTurn card s = .next s') :
    ∃ body, card s.log (getResponse s.nextLe).bytes = .ok (body ++ [0x61, s'.nextLe]) ∧
      s'.combined = s.combined ++ body ∧ s'.log = s.log ++ [(getResponse s.nextLe).bytes] := by
  unfold chainTurn at h
  dsimp only at h
  split at h
  · cases h
  next body sw1 sw2 hanswer =>
    split at h
    · cases h
    · split at h
      next hmore =>
        split at h
        · cases h
        · injection h with h
          subst h
          rw [hmore] at hanswer
          exact ⟨body, transmit_ok card hanswer, rfl, rfl⟩
      · cases h

/-- **What the chain assembles.** -/
theorem chain_assembles {s : Chain} {sent : List Bytes} {r : ResponseApdu}
    (hbreak : ∀ log command r, card log command ≠ .error (.outcome (.response r)))
    (h : chain card s = some (sent, .ok (.response r))) :
    ∃ gets bodies, sent = s.log ++ gets ∧ r.body = s.combined ++ bodies.flatten ∧
      r.body.length ≤ extendedResponseDataMaxBytes ∧
      Answers card s.log (getResponse s.nextLe).bytes gets bodies r.sw1 r.sw2 := by
  -- on the run of the loop, from its first turn
  have hrun := runs_of_loop h
  clear h
  generalize hresult : (sent, (.ok (.response r) : Ending PE)) = result at hrun
  induction hrun with
  | done hdone =>
    subst hresult
    obtain ⟨body, hanswer, hlast, hbody, hfits, hlog⟩ := chainTurn_response card hbreak hdone
    refine ⟨_, [body], hlog, ?_, hfits, .last hanswer hlast⟩
    rw [hbody, List.flatten_singleton]
  | next hnext hrest ih =>
    obtain ⟨body, hanswer, hcombined, hlog⟩ := chainTurn_next card hnext
    obtain ⟨gets, bodies, hsent, hbody, hfits, hanswers⟩ := ih hresult
    rw [hlog] at hsent hanswers
    refine ⟨_ :: gets, body :: bodies, ?_, ?_, hfits, .more hanswer hanswers⟩
    · rw [hsent, List.append_assoc, List.singleton_append]
    · rw [hbody, hcombined, List.flatten_cons, List.append_assoc]

/-- A chain has at most so many transmissions: each but the last has added to the body. -/
theorem chain_sent_length {s : Chain} {sent : List Bytes} {ending : Ending PE}
    (h : chain card s = some (sent, ending)) :
    sent.length ≤ s.log.length + (extendedResponseDataMaxBytes - s.combined.length) + 1 := by
  have hrun := runs_of_loop h
  clear h
  generalize hresult : (sent, ending) = result at hrun
  induction hrun with
  | @done s r hdone =>
    subst hresult
    obtain ⟨ending', hend⟩ | ⟨combined, le, hgo, -, -⟩ := chainTurn_cases card s
    · rw [hend] at hdone
      injection hdone with hdone
      obtain ⟨rfl, -⟩ := Prod.mk.inj hdone
      rw [List.length_append, List.length_singleton]
      omega
    · rw [hgo] at hdone
      cases hdone
  | @next s s' r hnext hrest ih =>
    obtain ⟨ending', hend⟩ | ⟨combined, le, hgo, hlonger, hmax⟩ := chainTurn_cases card s
    · rw [hend] at hnext
      cases hnext
    · rw [hgo] at hnext
      injection hnext with hnext
      subst hnext
      -- the log has grown by one, the room left has shrunk by at least one
      have hrest := ih hresult
      simp only [List.length_append, List.length_singleton] at hrest
      omega

/-- A command that ends the exchange with a response has had a chain of answers. -/
theorem exchangeTurn_response {sent : CommandApdu} {before log : List Bytes} {r : ResponseApdu}
    (hbreak : ∀ log command r, card log command ≠ .error (.outcome (.response r)))
    (hfits : ∀ log command response, card log command = .ok response →
      response.length ≤ extendedResponseDataMaxBytes)
    (h : exchangeTurn card (sent, before) = .done (some (log, .ok (.response r)))) :
    ∃ after bodies, log = before ++ after ∧ r.body = bodies.flatten ∧
      r.body.length ≤ extendedResponseDataMaxBytes ∧
      Answers card before sent.bytes after bodies r.sw1 r.sw2 := by
  unfold exchangeTurn at h
  dsimp only at h
  split at h
  next ending hending =>
    injection h with h
    injection h with h
    obtain ⟨-, rfl⟩ := Prod.mk.inj h
    exact absurd hending (transmit_error card hbreak)
  next body sw1 sw2 hanswer =>
    split at h
    · cases h
    · split at h
      next hmore =>
        -- the command's answer heads the chain
        injection h with h
        obtain ⟨gets, bodies, hlog, hbody, hroom, hanswers⟩ := chain_assembles card hbreak h
        rw [hmore] at hanswer
        refine ⟨sent.bytes :: gets, body :: bodies, ?_, hbody, hroom,
          .more (transmit_ok card hanswer) hanswers⟩
        rw [hlog, List.append_assoc, List.singleton_append]
      next hlast =>
        injection h with h
        injection h with h
        obtain ⟨rfl, hr⟩ := Prod.mk.inj h
        injection hr with hr
        injection hr with hr
        subst hr
        have hread := transmit_ok card hanswer
        refine ⟨_, [body], rfl, ?_, ?_, .last hread hlast⟩
        · rw [List.flatten_singleton]
        · have hroom := hfits _ _ _ hread
          rw [List.length_append] at hroom
          show body.length ≤ extendedResponseDataMaxBytes
          omega

/-- How much a turn that ends the exchange has sent. -/
theorem exchangeTurn_sent_length {sent : CommandApdu} {before log : List Bytes}
    {ending : Ending PE} (h : exchangeTurn card (sent, before) = .done (some (log, ending))) :
    log.length ≤ before.length + extendedResponseDataMaxBytes + 2 := by
  unfold exchangeTurn at h
  dsimp only at h
  split at h
  · injection h with h
    injection h with h
    obtain ⟨rfl, -⟩ := Prod.mk.inj h
    rw [List.length_append, List.length_singleton]
    omega
  next body sw1 sw2 hanswer =>
    split at h
    · cases h
    · split at h
      · injection h with h
        have hlength := chain_sent_length card h
        simp only [List.length_append, List.length_singleton] at hlength
        omega
      · injection h with h
        injection h with h
        obtain ⟨rfl, -⟩ := Prod.mk.inj h
        rw [List.length_append, List.length_singleton]
        omega

end

/-- A reader's break is never a response. -/
theorem pcscTransmitter_break (reader : List Bytes → Bytes → Except (ReaderError PE) Received)
    (log : List Bytes) (command : Bytes) (r : ResponseApdu) :
    pcscTransmitter reader log command ≠ .error (.outcome (.response r)) := by
  intro h
  unfold pcscTransmitter at h
  split at h
  · cases h
  all_goals
    injection h with h
    cases h

/-- An answer fits the receive buffer. -/
theorem pcscTransmitter_fits (reader : List Bytes → Bytes → Except (ReaderError PE) Received)
    (log : List Bytes) (command response : Bytes)
    (h : pcscTransmitter reader log command = .ok response) :
    response.length ≤ extendedResponseDataMaxBytes := by
  unfold pcscTransmitter at h
  split at h
  next received hreceived =>
    injection h with h
    rw [← h]
    exact received.fits
  all_goals cases h

/-- **The exchange ends, and assembles what the card gave.**  Whatever the reader and the
    card do, a bounded number of transmissions is made.  A response that is returned does not
    ask for more, fits the ceiling, and its body is, in order, the bodies of the answers to
    the command as it was last sent and to the GET RESPONSEs after it, each of which asks for
    the `SW2` before it.  The command as last sent is the caller's, or the one with the `Le`
    of a `6Cxx` answer that was to be corrected. -/
theorem runT0Exchange_assembles
    (reader : List Bytes → Bytes → Except (ReaderError PE) Received) (apdu : CommandApdu) :
    ∃ sent ending, runT0Exchange (pcscTransmitter reader) apdu = some (sent, ending) ∧
      sent.length ≤ extendedResponseDataMaxBytes + 3 ∧
      ∀ r, ending = .ok (.response r) →
        r.sw1 ≠ 0x61 ∧ r.body.length ≤ extendedResponseDataMaxBytes ∧
        ∃ before command after bodies, sent = before ++ after ∧ r.body = bodies.flatten ∧
          Answers (pcscTransmitter reader) before command after bodies r.sw1 r.sw2 ∧
          ((before = [] ∧ command = apdu.bytes) ∨
            (apdu.wrongLeRetry = true ∧ ∃ body sw2,
              pcscTransmitter reader [] apdu.bytes = .ok (body ++ [0x6C, sw2]) ∧
              before = [apdu.bytes] ∧ command = apdu.bytes.dropLast ++ [sw2])) := by
  have hbreak := pcscTransmitter_break reader
  have hfits := pcscTransmitter_fits reader
  unfold runT0Exchange
  obtain ⟨gets, ending, hdone, -⟩ | ⟨body, sw2, hflag, hcard, hnext⟩ :=
    exchangeTurn_cases (pcscTransmitter reader) apdu []
  · -- the first answer ends it, or heads the chain
    refine ⟨[] ++ apdu.bytes :: gets, ending, ?_, ?_, ?_⟩
    · simp only [loop, hdone]
      rfl
    · have hlength := exchangeTurn_sent_length _ hdone
      rw [List.length_nil] at hlength
      omega
    · intro r hr
      subst hr
      obtain ⟨after, bodies, hlog, hbody, hroom, hanswers⟩ :=
        exchangeTurn_response _ hbreak hfits hdone
      exact ⟨hanswers.sw1_ne, hroom, [], apdu.bytes, after, bodies, hlog, hbody, hanswers,
        .inl ⟨rfl, rfl⟩⟩
  · -- the corrected command may not be corrected again
    obtain ⟨gets, ending, hdone, -⟩ | ⟨_, _, hflag', -, -⟩ :=
      exchangeTurn_cases (pcscTransmitter reader) ⟨apdu.bytes.dropLast ++ [sw2], false⟩
        ([] ++ [apdu.bytes])
    · refine ⟨[] ++ [apdu.bytes] ++ (apdu.bytes.dropLast ++ [sw2]) :: gets, ending, ?_, ?_, ?_⟩
      · rw [loop, hnext]
        simp only [loop, hdone]
        rfl
      · have hlength := exchangeTurn_sent_length _ hdone
        simp only [List.length_append, List.length_nil, List.length_cons] at hlength ⊢
        omega
      · intro r hr
        subst hr
        obtain ⟨after, bodies, hlog, hbody, hroom, hanswers⟩ :=
          exchangeTurn_response _ hbreak hfits hdone
        exact ⟨hanswers.sw1_ne, hroom, _, _, after, bodies, hlog, hbody, hanswers,
          .inr ⟨hflag, body, sw2, hcard, rfl, rfl⟩⟩
    · cases hflag'

end

/-- A card that gives an octet with its `6Cxx`, and another one to the corrected command. -/
def correctingReader : List Bytes → Bytes → Except (ReaderError Unit) Received
  | [], _ => .ok ⟨[1, 0x6C, 5], by decide⟩
  | _ :: _, _ => .ok ⟨[7, 0x90, 0], by decide⟩

/-- The body of the first answer is not always part of the response. -/
theorem first_answer_dropped :
    ¬ ∀ (reader : List Bytes → Bytes → Except (ReaderError Unit) Received) (apdu : CommandApdu)
        (sent : List Bytes) (r : ResponseApdu) (body : Bytes) (sw1 sw2 : UInt8),
      runT0Exchange (pcscTransmitter reader) apdu = some (sent, .ok (.response r)) →
      pcscTransmitter reader [] apdu.bytes = .ok (body ++ [sw1, sw2]) → body <+: r.body := by
  intro h
  have hdropped := h correctingReader (getResponse 0)
    [[0, 0xC0, 0, 0, 0], [0, 0xC0, 0, 0, 5]] ⟨[7], 0x90, 0⟩ [1] 0x6C 5 rfl rfl
  exact absurd hdropped (by decide)

end T0Exchange

end RefineId
