/-
  RefineId.SecureSession — whole sessions over the protected channel.
  ════════════════════════════════════════════════════════════════════════════

  `SmTransport` is itself a transport, and what runs above it does not know of the channel.
  Here a card with some applet stands at its other end, and a session is any list of commands.
  A command that is found too long after its counter was bumped (`wrappedTooLong`) is the one
  that puts the ends out of step; without it the channel cannot be told from the plain
  applet.

  Against an arbitrary transport there remains the counter: every MAC of a session is computed
  under a number of its own.

  Main results:
    • `channel_transparent` : a session over the channel is the session with the applet.
    • `counters_distinct`   : no counter of a session is used twice, whatever the transport
                              does.
    • `replay_collides`     : an answer passes twice only where two MACs collide.
-/
import RefineId.SecureChannel

namespace RefineId

namespace SecureMessaging

open Ber Lib

/-! ## §1. The card with its applet -/

/-- What an applet answers; a card builds a body of this size in any case. -/
structure Answer where
  body : Bytes
  sw1 : UInt8
  sw2 : UInt8
  sealEmpty : Bool
  length_body : body.length ≤ 65536

/-- An applet: its state, and what it makes of a command. -/
abbrev Applet (σ : Type) := σ → CardCommand → σ × Answer

/-- A card: its half of the session, until a command is refused, and the state of its applet. -/
structure CardState (σ : Type) where
  session : Option SmSession
  app : σ

/-- A refusal: incorrect objects of secure messaging. -/
def refusal : ResponseApdu := ⟨[], 0x69, 0x88⟩

section
variable {σ : Type} (E : Type) (aes : Aes) (applet : Applet σ)

/-- The card takes a protected command, lets the applet answer and protects the answer.  A
    command that is refused ends the session. -/
def cardReceive (c : CardState σ) (wrapped : Bytes) : CardState σ × ResponseApdu :=
  match c.session with
  | none => (c, refusal)
  | some s =>
    match cardAccept aes s wrapped with
    | none => (⟨none, c.app⟩, refusal)
    | some command =>
      let (app, a) := applet c.app command
      match cardRespond aes s.incrementSsc a.sealEmpty a.body a.sw1 a.sw2 with
      | none => (⟨none, app⟩, refusal)
      | some response =>
        (⟨some s.incrementSsc.incrementSsc, app⟩, ⟨response, a.sw1, a.sw2⟩)

/-- One exchange of host and card. -/
def exchange (ends : SmSession × CardState σ) (apdu : CommandApdu) :
    (SmSession × CardState σ) × Except (SmError E) TransportOutcome :=
  let link : CommandApdu → Except E TransportOutcome := fun command =>
    .ok (.response (cardReceive aes applet ends.2 command.bytes).2)
  let card := match (wrap aes ends.1 apdu.bytes : _ × Except (SmError E) Bytes).2 with
    | .ok wrapped => (cardReceive aes applet ends.2 wrapped).1
    | .error _ => ends.2
  let (host, outcome) := transmitOutcome aes ends.1 apdu link
  ((host, card), outcome)

/-- A session: one exchange after the other, with what each came to. -/
def session (ends : SmSession × CardState σ) :
    List CommandApdu → (SmSession × CardState σ) × List (Except (SmError E) TransportOutcome)
  | [] => (ends, [])
  | apdu :: apdus =>
    let (ends', outcome) := exchange E aes applet ends apdu
    let (last, outcomes) := session ends' apdus
    (last, outcome :: outcomes)

/-! ## §2. The applet without the channel -/

/-- What the applet makes of a command, and why none is made of what is no short command. -/
def plainExchange (app : σ) (apdu : CommandApdu) : σ × Except (SmError E) TransportOutcome :=
  match decodeShortApdu apdu.bytes with
  | none => (app, .error (.malformed (if apdu.bytes.length < 4
      then "APDU shorter than 4-byte header" else "APDU does not match a short-form case")))
  | some (data, le) =>
    let (app', a) := applet app
      ⟨smHeader (apdu.bytes.take 4), if data = [] then none else some data, le⟩
    (app', .ok (.response ⟨a.body, a.sw1, a.sw2⟩))

/-- A session without the channel. -/
def plainSession (app : σ) :
    List CommandApdu → σ × List (Except (SmError E) TransportOutcome)
  | [] => (app, [])
  | apdu :: apdus =>
    let (app', outcome) := plainExchange E applet app apdu
    let (last, outcomes) := plainSession app' apdus
    (last, outcome :: outcomes)

/-! ## §3. One exchange -/

variable {E aes applet}

/-- A command that fits is protected; one of another shape leaves the counter. -/
theorem wrap_of_fits (s : SmSession) {plain : Bytes} (h : wrappedTooLong plain = false) :
    (decodeShortApdu plain = none ∧
      (wrap aes s plain : _ × Except (SmError E) Bytes) =
        (s, .error (.malformed (if plain.length < 4 then "APDU shorter than 4-byte header"
          else "APDU does not match a short-form case")))) ∨
    ∃ data le wrapped, decodeShortApdu plain = some (data, le) ∧
      (wrap aes s plain : _ × Except (SmError E) Bytes) = (s.incrementSsc, .ok wrapped) ∧
      cardAccept aes s wrapped =
        some ⟨smHeader (plain.take 4), if data = [] then none else some data, le⟩ := by
  obtain ⟨hnone, -⟩ | ⟨cla, ins, p1, p2, rest, data, le, hsplit, hdecode, hw⟩ :=
    wrap_cases (E := E) aes s plain
  · refine .inl ⟨hnone, ?_⟩
    obtain _ | ⟨cla, _ | ⟨ins, _ | ⟨p1, _ | ⟨p2, rest⟩⟩⟩⟩ := plain
    · rfl
    · rfl
    · rfl
    · rfl
    · have hlength : ¬ (cla :: ins :: p1 :: p2 :: rest).length < 4 := by simp
      rw [if_neg hlength, wrap, hnone]
  · have hmax := (decodeShortApdu_spec hdecode).2
    refine .inr ⟨data, le, ?_⟩
    cases hp : (protectCommand aes s.incrementSsc [cla ||| 0x0C, ins, p1, p2] data le :
        Except (SmError E) Bytes) with
    | error e =>
      have hlong := (protectCommand_error_iff aes _ _ le hmax).mp ⟨e, hp⟩
      have hno : data.length < 240 ∧ (le.isSome → data.length < 224) := by
        simpa [wrappedTooLong, hdecode] using h
      obtain hdata | ⟨hle, hdata⟩ := hlong
      · omega
      · have := hno.2 hle
        omega
    | ok wrapped =>
      refine ⟨wrapped, hdecode, by rw [hw, hp], ?_⟩
      rw [cardAccept_protectCommand aes rfl hmax hp, hsplit]
      rfl

/-- A card in step answers what the applet answers. -/
theorem cardReceive_accepted {s : SmSession} {app : σ} {wrapped : Bytes} {command : CardCommand}
    (h : cardAccept aes s wrapped = some command) :
    ∃ response, response ≠ [] ∧
      cardReceive aes applet ⟨some s, app⟩ wrapped =
        (⟨some s.incrementSsc.incrementSsc, (applet app command).1⟩,
          ⟨response, (applet app command).2.sw1, (applet app command).2.sw2⟩) ∧
      (unwrap aes s.incrementSsc response : _ × Except (SmError E) _) =
        (s.incrementSsc.incrementSsc, .ok ((applet app command).2.body,
          (applet app command).2.sw1, (applet app command).2.sw2)) := by
  generalize hanswer : applet app command = result
  obtain ⟨app', a⟩ := result
  have hsize := a.length_body
  obtain ⟨response, hresponse⟩ := Option.isSome_iff_exists.mp
    (cardRespond_isSome aes s.incrementSsc a.sealEmpty a.sw1 a.sw2
      (show (a.body.length / 16 + 1) * 16 + 1 < 2 ^ 32 by omega))
  have hread := unwrap_cardRespond (E := E) aes s.incrementSsc hresponse
  refine ⟨response, ?_, ?_, ?_⟩
  · rintro rfl
    -- an empty answer has no objects to read
    have hempty : (unwrap aes s.incrementSsc [] : _ × Except (SmError E) _).2 =
        .error (.malformed "no DO99") := rfl
    rw [hempty] at hread
    cases hread
  · simp only [cardReceive, h, hanswer, hresponse]
  · rw [← hread]
    rfl

/-- **One exchange in step** is one exchange with the applet, and leaves the ends in step. -/
theorem exchange_in_step (E : Type) (aes : Aes) (applet : Applet σ) (s : SmSession) (app : σ)
    {apdu : CommandApdu} (hfits : wrappedTooLong apdu.bytes = false) :
    ∃ s', exchange E aes applet (s, ⟨some s, app⟩) apdu =
      ((s', ⟨some s', (plainExchange E applet app apdu).1⟩),
        (plainExchange E applet app apdu).2) := by
  obtain ⟨hnone, hw⟩ | ⟨data, le, wrapped, hdecode, hw, haccept⟩ :=
    @wrap_of_fits E aes s apdu.bytes hfits
  · refine ⟨s, ?_⟩
    simp only [exchange, transmitOutcome, hw, plainExchange, hnone]
  · obtain ⟨response, hne, hreceive, hunwrap⟩ :=
      @cardReceive_accepted σ E aes applet s app wrapped _ haccept
    refine ⟨s.incrementSsc.incrementSsc, ?_⟩
    simp only [exchange, transmitOutcome, hw, CommandApdu.new, hreceive, if_neg hne, hunwrap,
      plainExchange, hdecode]

/-- **The channel is transparent.**  A session of commands none of which is found too long is the
    session with the applet itself, and host and card end it with one counter. -/
theorem channel_transparent (E : Type) (aes : Aes) (applet : Applet σ) (s : SmSession) (app : σ)
    (apdus : List CommandApdu) (hfits : ∀ apdu ∈ apdus, wrappedTooLong apdu.bytes = false) :
    ∃ s', session E aes applet (s, ⟨some s, app⟩) apdus =
      ((s', ⟨some s', (plainSession E applet app apdus).1⟩),
        (plainSession E applet app apdus).2) := by
  induction apdus generalizing s app with
  | nil => exact ⟨s, rfl⟩
  | cons apdu apdus ih =>
    obtain ⟨s', hexchange⟩ := exchange_in_step E aes applet s app (hfits apdu List.mem_cons_self)
    obtain ⟨s'', hsession⟩ := ih s' (plainExchange E applet app apdu).1
      fun later hlater => hfits later (List.mem_cons_of_mem _ hlater)
    refine ⟨s'', ?_⟩
    simp only [session, hexchange, hsession, plainSession]

/-- SELECT and READ BINARY against an applet that counts its commands. -/
theorem two_commands_transparent :
    ∃ s', session String sampleAes
        (fun count _ => (count + 1, ⟨[0x43, 0x31], 0x90, 0x00, false, by decide⟩))
        (sampleSession, ⟨some sampleSession, 0⟩)
        [.new selectCommand, .new [0x00, 0xB0, 0x00, 0x00, 0x02]] =
      ((s', ⟨some s', 2⟩), [.ok (.response ⟨[0x43, 0x31], 0x90, 0x00⟩),
        .ok (.response ⟨[0x43, 0x31], 0x90, 0x00⟩)]) :=
  channel_transparent String sampleAes _ sampleSession 0 _ (by decide)

end

/-! ## §4. The counter of a session -/

/-- The counter as a number. -/
def Ssc.value (ssc : Ssc) : Nat := Counter.value ssc.block.bytes.reverse

theorem Ssc.value_increment (ssc : Ssc) : ssc.increment.value = (ssc.value + 1) % 2 ^ 128 := by
  have hwidth : 256 ^ ssc.block.bytes.reverse.length = 2 ^ 128 := by
    rw [List.length_reverse, ssc.block.length_bytes]
    rfl
  rw [Ssc.value, Ssc.increment, List.reverse_reverse, Counter.value_bump, hwidth]
  rfl

section
variable {E : Type} (aes : Aes)

/-- One step of a session against any transport: a command, and what the transport makes of the
    protected one. -/
structure Step (E : Type) where
  apdu : CommandApdu
  link : CommandApdu → Except E TransportOutcome

/-- The counters that an exchange takes: one for the command, one for an answer with a body. -/
def Step.counters (s : SmSession) (step : Step E) : List Ssc :=
  match decodeShortApdu step.apdu.bytes,
      (wrap aes s step.apdu.bytes : _ × Except (SmError E) Bytes).2 with
  | none, _ => []
  | some _, .error _ => [s.ssc.increment]
  | some _, .ok wrapped =>
    match step.link (.new wrapped) with
    | .ok (.response raw) =>
      if raw.body = [] then [s.ssc.increment] else [s.ssc.increment, s.ssc.increment.increment]
    | _ => [s.ssc.increment]

/-- The session after an exchange. -/
def Step.after (s : SmSession) (step : Step E) : SmSession :=
  (transmitOutcome aes s step.apdu step.link).1

/-- The counters that a session takes. -/
def counters (s : SmSession) : List (Step E) → List Ssc
  | [] => []
  | step :: steps => step.counters aes s ++ counters (step.after aes s) steps

/-- Counters as they come: each one up from the last. -/
def consecutive (ssc : Ssc) : Nat → List Ssc
  | 0 => []
  | k + 1 => ssc.increment :: consecutive ssc.increment k

/-- The counter after some more. -/
def Ssc.advance (ssc : Ssc) : Nat → Ssc
  | 0 => ssc
  | k + 1 => ssc.increment.advance k

theorem consecutive_append (ssc : Ssc) (k l : Nat) :
    consecutive ssc k ++ consecutive (ssc.advance k) l = consecutive ssc (k + l) := by
  induction k generalizing ssc with
  | zero => simp [consecutive, Ssc.advance]
  | succ k ih =>
    rw [Nat.succ_add, consecutive, consecutive, List.cons_append, Ssc.advance, ih]

theorem wrap_shape (s : SmSession) (plain : Bytes) :
    (decodeShortApdu plain = none ∧
      ∃ e, (wrap aes s plain : _ × Except (SmError E) Bytes) = (s, .error e)) ∨
    ∃ found r, decodeShortApdu plain = some found ∧
      (wrap aes s plain : _ × Except (SmError E) Bytes) = (s.incrementSsc, r) := by
  obtain ⟨hnone, what, hw⟩ | ⟨cla, ins, p1, p2, rest, data, le, -, hdecode, hw⟩ :=
    wrap_cases (E := E) aes s plain
  · exact .inl ⟨hnone, _, hw⟩
  · exact .inr ⟨_, _, hdecode, hw⟩

theorem unwrap_session (s : SmSession) (response : Bytes) :
    (unwrap aes s response : _ × Except (SmError E) _).1 = s.incrementSsc := rfl

/-- An exchange that is answered by no body takes one counter. -/
theorem Step.counters_no_body {s : SmSession} {step : Step E} {found : Bytes × Option UInt8}
    {wrapped : Bytes} (hdecode : decodeShortApdu step.apdu.bytes = some found)
    (hw : (wrap aes s step.apdu.bytes : _ × Except (SmError E) Bytes) =
      (s.incrementSsc, .ok wrapped))
    (hempty : ∀ raw, step.link (.new wrapped) = .ok (.response raw) → raw.body = []) :
    step.counters aes s = consecutive s.ssc 1 ∧
      step.after aes s = { s with ssc := s.ssc.advance 1 } := by
  refine ⟨?_, ?_⟩
  · simp only [Step.counters, hdecode, hw]
    split
    · next raw hraw => rw [if_pos (hempty raw hraw)]; rfl
    · rfl
  · simp only [Step.after, transmitOutcome, hw]
    split
    · rfl
    · next raw hraw => rw [if_pos (hempty raw hraw)]; rfl
    · rfl

/-- An answer with a body takes a second counter, whether or not it is accepted. -/
theorem Step.counters_body {s : SmSession} {step : Step E} {found : Bytes × Option UInt8}
    {wrapped : Bytes} {raw : ResponseApdu}
    (hdecode : decodeShortApdu step.apdu.bytes = some found)
    (hw : (wrap aes s step.apdu.bytes : _ × Except (SmError E) Bytes) =
      (s.incrementSsc, .ok wrapped))
    (hraw : step.link (.new wrapped) = .ok (.response raw)) (hbody : raw.body ≠ []) :
    step.counters aes s = consecutive s.ssc 2 ∧
      step.after aes s = { s with ssc := s.ssc.advance 2 } := by
  refine ⟨?_, ?_⟩
  · simp only [Step.counters, hdecode, hw, hraw, if_neg hbody]
    rfl
  · simp only [Step.after, transmitOutcome, hw, hraw, if_neg hbody]
    have hsession := unwrap_session (E := E) aes s.incrementSsc raw.body
    split
    · next heq =>
      rw [heq] at hsession
      exact hsession
    · next heq =>
      rw [heq] at hsession
      exact hsession

/-- **One exchange** takes the next counters, and the session is at the last of them. -/
theorem Step.counters_consecutive (s : SmSession) (step : Step E) :
    ∃ k, k ≤ 2 ∧ step.counters aes s = consecutive s.ssc k ∧
      step.after aes s = { s with ssc := s.ssc.advance k } := by
  obtain ⟨hnone, e, hw⟩ | ⟨found, r, hdecode, hw⟩ := wrap_shape (E := E) aes s step.apdu.bytes
  · refine ⟨0, by omega, ?_, ?_⟩
    · simp only [Step.counters, hnone, consecutive]
    · simp only [Step.after, transmitOutcome, hw]
      rfl
  · cases r with
    | error e =>
      refine ⟨1, by omega, ?_, ?_⟩
      · simp only [Step.counters, hdecode, hw, consecutive]
      · simp only [Step.after, transmitOutcome, hw]
        rfl
    | ok wrapped =>
      by_cases hanswer : ∃ raw, step.link (.new wrapped) = .ok (.response raw) ∧ raw.body ≠ []
      · obtain ⟨raw, hraw, hbody⟩ := hanswer
        exact ⟨2, by omega, Step.counters_body aes hdecode hw hraw hbody⟩
      · refine ⟨1, by omega, Step.counters_no_body aes hdecode hw ?_⟩
        intro raw hraw
        by_contra hbody
        exact hanswer ⟨raw, hraw, hbody⟩

/-- **A session takes consecutive counters.** -/
theorem counters_consecutive (s : SmSession) (steps : List (Step E)) :
    ∃ k, k ≤ 2 * steps.length ∧ counters aes s steps = consecutive s.ssc k := by
  induction steps generalizing s with
  | nil => exact ⟨0, by simp, rfl⟩
  | cons step steps ih =>
    obtain ⟨k, hk, hcounters, hafter⟩ := step.counters_consecutive aes s
    obtain ⟨l, hl, hrest⟩ := ih (step.after aes s)
    refine ⟨k + l, ?_, ?_⟩
    · rw [List.length_cons]
      omega
    · rw [counters, hcounters, hrest, hafter, ← consecutive_append]

/-! ## §5. No counter twice -/

theorem length_consecutive (ssc : Ssc) (k : Nat) : (consecutive ssc k).length = k := by
  induction k generalizing ssc with
  | zero => rfl
  | succ k ih => rw [consecutive, List.length_cons, ih]

theorem value_consecutive (ssc : Ssc) (k : Nat) : (consecutive ssc k).map Ssc.value =
    (List.range k).map fun i => (ssc.value + 1 + i) % 2 ^ 128 := by
  induction k generalizing ssc with
  | zero => rfl
  | succ k ih =>
    rw [consecutive, List.map_cons, ih, Ssc.value_increment, List.range_succ_eq_map, List.map_cons,
      List.map_map, Nat.add_zero]
    congr 1
    apply List.map_congr_left
    intro i _
    show ((ssc.value + 1) % 2 ^ 128 + 1 + i) % 2 ^ 128 = (ssc.value + 1 + (i + 1)) % 2 ^ 128
    omega

theorem Ssc.value_lt (ssc : Ssc) : ssc.value < 2 ^ 128 := by
  have hlt := Counter.value_lt ssc.block.bytes.reverse
  rw [List.length_reverse, ssc.block.length_bytes] at hlt
  exact hlt

theorem Ssc.value_injective : Function.Injective Ssc.value := by
  intro ⟨⟨bytes, hbytes⟩⟩ ⟨⟨bytes', hbytes'⟩⟩ h
  have hsame := Counter.value_injective (by simp [hbytes, hbytes']) h
  simp only [List.reverse_inj] at hsame
  subst hsame
  rfl

theorem nodup_consecutive (ssc : Ssc) {k : Nat} (hk : k ≤ 2 ^ 128) :
    (consecutive ssc k).Nodup := by
  apply List.Nodup.of_map Ssc.value
  rw [value_consecutive]
  refine List.nodup_range.map_on ?_
  intro i hi j hj hij
  rw [List.mem_range] at hi hj
  omega

/-- **No counter of a session is used twice**, whatever the transport does, until all of them are
    used up; and an exchange takes at most two. -/
theorem counters_distinct (s : SmSession) (steps : List (Step E)) :
    (counters aes s steps).length ≤ 2 * steps.length ∧
    ((counters aes s steps).Nodup ↔ (counters aes s steps).length ≤ 2 ^ 128) := by
  obtain ⟨k, hk, hcounters⟩ := counters_consecutive aes s steps
  rw [hcounters, length_consecutive]
  refine ⟨hk, ?_, ?_⟩
  · intro hnodup
    -- different counters have different numbers, and there are only so many
    have hvalues := hnodup.map Ssc.value_injective
    have hsub : ((consecutive s.ssc k).map Ssc.value).toFinset ⊆ Finset.range (2 ^ 128) := by
      intro v hv
      obtain ⟨ssc, -, rfl⟩ := List.mem_map.mp (List.mem_toFinset.mp hv)
      exact Finset.mem_range.mpr ssc.value_lt
    have hcard := Finset.card_le_card hsub
    rwa [List.toFinset_card_of_nodup hvalues, List.length_map, length_consecutive,
      Finset.card_range] at hcard
  · exact nodup_consecutive s.ssc

/-! ## §6. Answers that are played back -/

/-- The answer of an exchange that passes for authentic, under the counter it is checked
    with. -/
def Step.accepted (s : SmSession) (step : Step E) : List (Ssc × Bytes) :=
  match (wrap aes s step.apdu.bytes : _ × Except (SmError E) Bytes).2 with
  | .error _ => []
  | .ok wrapped =>
    match step.link (.new wrapped) with
    | .ok (.response raw) =>
      if raw.body = [] then []
      else
        match (unwrap aes s.incrementSsc raw.body : _ × Except (SmError E) _).2 with
        | .error _ => []
        | .ok _ => [(s.ssc.increment.increment, raw.body)]
    | _ => []

/-- The answers of a session that pass for authentic. -/
def accepted (s : SmSession) : List (Step E) → List (Ssc × Bytes)
  | [] => []
  | step :: steps => step.accepted aes s ++ accepted (step.after aes s) steps

/-- What is checked of such an answer. -/
def Passes (s : SmSession) (answer : Ssc × Bytes) (o : Objects) (do99 : Bytes) : Prop :=
  (collectObjects answer.2 : Except (SmError E) Objects) = .ok o ∧ o.do99 = some do99 ∧
    o.do8E = some (aes256CmacTruncated aes s.kMac
      (responseMacInput { s with ssc := answer.1 } o.do87 do99))

/-- Two messages under one key with one MAC. -/
def Collides (key : Aes256Key) (message message' : Bytes) : Prop :=
  message ≠ message' ∧ aes256CmacTruncated aes key message = aes256CmacTruncated aes key message'

theorem Step.accepted_spec (s : SmSession) (step : Step E) :
    step.accepted aes s = [] ∨
    ∃ octets o do99, step.accepted aes s = [(s.ssc.increment.increment, octets)] ∧
      step.counters aes s = [s.ssc.increment, s.ssc.increment.increment] ∧
      Passes (E := E) aes s (s.ssc.increment.increment, octets) o do99 := by
  obtain ⟨hnone, e, hw⟩ | ⟨found, r, hdecode, hw⟩ := wrap_shape (E := E) aes s step.apdu.bytes
  · left
    simp only [Step.accepted, hw]
  · cases r with
    | error e =>
      left
      simp only [Step.accepted, hw]
    | ok wrapped =>
      by_cases hanswer : ∃ raw, step.link (.new wrapped) = .ok (.response raw) ∧ raw.body ≠ []
      · obtain ⟨raw, hraw, hbody⟩ := hanswer
        cases hunwrap : (unwrap aes s.incrementSsc raw.body : _ × Except (SmError E) _).2 with
        | error e =>
          left
          simp only [Step.accepted, hw, hraw, if_neg hbody, hunwrap]
        | ok result =>
          obtain ⟨body, sw1, sw2⟩ := result
          obtain ⟨o, hcollect, hopen⟩ := bind_eq_ok.mp hunwrap
          obtain ⟨h99, h8E, -⟩ := (openObjects_eq_ok aes).mp hopen
          refine .inr ⟨raw.body, o, [sw1, sw2], ?_, ?_, hcollect, h99, h8E⟩
          · simp only [Step.accepted, hw, hraw, if_neg hbody, hunwrap]
          · exact (Step.counters_body aes hdecode hw hraw hbody).1
      · left
        simp only [Step.accepted, hw]
        split
        · next raw hraw =>
          rw [if_pos]
          by_contra hbody
          exact hanswer ⟨raw, hraw, hbody⟩
        · rfl

/-- The keys of a session stay. -/
theorem Step.after_keys (s : SmSession) (step : Step E) :
    ∃ ssc, step.after aes s = { s with ssc := ssc } := by
  obtain ⟨k, -, -, hafter⟩ := step.counters_consecutive aes s
  exact ⟨_, hafter⟩

theorem accepted_sublist (s : SmSession) (steps : List (Step E)) :
    ((accepted aes s steps).map Prod.fst).Sublist (counters aes s steps) := by
  induction steps generalizing s with
  | nil => exact List.Sublist.refl []
  | cons step steps ih =>
    rw [accepted, counters, List.map_append]
    refine List.Sublist.append ?_ (ih (step.after aes s))
    obtain hnone | ⟨octets, o, do99, haccepted, hcounters, -⟩ := step.accepted_spec aes s
    · rw [hnone]
      exact List.nil_sublist _
    · rw [haccepted, hcounters]
      exact List.sublist_cons_self _ _

theorem accepted_passes (s : SmSession) (steps : List (Step E)) {answer : Ssc × Bytes}
    (h : answer ∈ accepted aes s steps) : ∃ o do99, Passes (E := E) aes s answer o do99 := by
  induction steps generalizing s with
  | nil => cases h
  | cons step steps ih =>
    rw [accepted, List.mem_append] at h
    obtain hnow | hlater := h
    · obtain hnone | ⟨octets, o, do99, haccepted, -, hpasses⟩ := step.accepted_spec aes s
      · rw [hnone] at hnow
        cases hnow
      · rw [haccepted, List.mem_singleton] at hnow
        rw [hnow]
        exact ⟨o, do99, hpasses⟩
    · obtain ⟨ssc, hafter⟩ := step.after_keys aes s
      rw [hafter] at hlater
      exact ih { s with ssc := ssc } hlater

/-- The counter can be read off a MAC's input. -/
theorem responseMacInput_ssc {s : SmSession} {ssc ssc' : Ssc} {do87 : Option Bytes} {do99 : Bytes}
    (h : responseMacInput { s with ssc := ssc } do87 do99 =
      responseMacInput { s with ssc := ssc' } do87 do99) : ssc = ssc' := by
  have hdata := pad_injective (by decide) 16 h
  simp only [List.append_assoc] at hdata
  have hbytes := List.append_inj_left hdata
    (ssc.block.length_bytes.trans ssc'.block.length_bytes.symm)
  apply Ssc.value_injective
  rw [Ssc.value, Ssc.value, hbytes]

/-- **An answer that is played back is refused**, unless MACs collide.  The transport may do
    anything: where the same octets pass for authentic in two exchanges of a session, two
    messages that the host computes from them have one MAC. -/
theorem replay_collides (s : SmSession) (steps : List (Step E))
    (hfew : (counters aes s steps).length ≤ 2 ^ 128) :
    (accepted aes s steps).Pairwise fun first second => first.2 = second.2 →
      ∃ o do99, (collectObjects first.2 : Except (SmError E) Objects) = .ok o ∧
        o.do99 = some do99 ∧
        Collides aes s.kMac (responseMacInput { s with ssc := first.1 } o.do87 do99)
          (responseMacInput { s with ssc := second.1 } o.do87 do99) := by
  obtain ⟨k, -, hcounters⟩ := counters_consecutive aes s steps
  have hdistinct : ((accepted aes s steps).map Prod.fst).Nodup := by
    apply (accepted_sublist aes s steps).nodup
    rw [hcounters] at hfew ⊢
    rw [length_consecutive] at hfew
    exact nodup_consecutive s.ssc hfew
  rw [List.Nodup, List.pairwise_map] at hdistinct
  refine hdistinct.imp_of_mem ?_
  intro first second hfirst hsecond hne hsame
  obtain ⟨o, do99, hcollect, h99, h8E⟩ := accepted_passes aes s steps hfirst
  obtain ⟨o', do99', hcollect', h99', h8E'⟩ := accepted_passes aes s steps hsecond
  -- the same octets hold the same objects
  rw [hsame, hcollect'] at hcollect
  obtain rfl := Except.ok.inj hcollect
  obtain rfl : do99' = do99 := Option.some.inj (h99'.symm.trans h99)
  rw [hsame]
  refine ⟨o', do99', hcollect', h99, ?_, ?_⟩
  · intro hinput
    exact hne (responseMacInput_ssc hinput)
  · exact Option.some.inj (h8E.symm.trans h8E')

/-- Ciphers under which every message has the code zero. -/
def flatAes : Aes := .ofValues ⟨[], [], []⟩

/-- A transport that gives one answer again and again, whose status is `9000` and whose code is
    zero. -/
def playedBack : Step String :=
  ⟨.new selectCommand, fun _ => .ok (.response
    ⟨[0x99, 0x02, 0x90, 0x00, 0x8E, 0x08, 0x00, 0x00, 0x00, 0x00, 0x00, 0x00, 0x00, 0x00],
      0x90, 0x00⟩)⟩

theorem played_back_collides :
    (accepted flatAes sampleSession [playedBack, playedBack]).Pairwise
      fun first second => first.2 = second.2 →
        ∃ o do99, (collectObjects first.2 : Except (SmError String) Objects) = .ok o ∧
          o.do99 = some do99 ∧
          Collides flatAes sampleSession.kMac
            (responseMacInput { sampleSession with ssc := first.1 } o.do87 do99)
            (responseMacInput { sampleSession with ssc := second.1 } o.do87 do99) :=
  replay_collides flatAes sampleSession [playedBack, playedBack] (by decide +kernel)

end

end SecureMessaging

end RefineId
