/-
  RefineId.PaceAgreement — handshakes with a card of the same access number, and with a mirror.
  ════════════════════════════════════════════════════════════════════════════

  `run_pace_with_can` knows the card by its answers alone.  Two cards are put at the other end.
  The first keeps to the protocol from its side: it draws a nonce and two scalars, maps and
  agrees as the driver does, and checks the driver's token before it sends its own.  The second
  knows no access number: it sends back the driver's own points and its own token.

  What both have in common is that they keep up with the phases of the driver, and a driver
  whose card keeps up ends at the last phase unless its own draws stop it.

  Main results:
    • `run_of_partner`       : a driver whose card keeps up.
    • `handshake_agrees`     : with the same access number both ends have one session.
    • `mirror_accepted`      : a mirror is accepted, whatever the access number.
-/
import RefineId.Pace

namespace RefineId

namespace Pace

open Ber Lib Brainpool SecureMessaging

/-! ## §1. Histories of a world -/

section
variable {E : Type} {crypto : Crypto} {can : Can} {world : World E}

/-- An event as the world makes it. -/
def Makes (world : World E) : Event E → List (Event E) → Prop
  | .drew candidate, h => candidate = world.fill h
  | .sent apdu answer, h => answer = responseOf (world.transmitOutcome h apdu)

/-- The scalars drawn in a history, oldest first: what was drawn in range. -/
def scalars : List (Event E) → List U384
  | [] => []
  | .drew none :: h => scalars h
  | .drew (some k) :: h => if inRange k then scalars h ++ [k] else scalars h
  | .sent _ _ :: h => scalars h

/-- A part of the driver adds only events that the world makes. -/
def Keeps (world : World E) {α : Type} (m : Handshake E α) : Prop :=
  Triple (Always (Makes world)) m fun _ h => Always (Makes world) h

theorem Keeps.bind {α β : Type} {m : Handshake E α} {f : α → Handshake E β}
    (hm : Keeps world m) (hf : ∀ a, Keeps world (f a)) : Keeps world (m >>= f) := by
  refine Triple.bind (fun _ => Always (Makes world)) (hm.weaken (fun _ h => h) ?_) hf
  intro r h hr
  cases r <;> exact hr

theorem keeps_liftPace {α : Type} (r : Except (PaceError E) α) :
    Keeps world (liftPace r : Handshake E α) :=
  Triple.lift fun _ h => h

theorem keeps_command (stage : String) (apdu : Bytes) : Keeps world (command world stage apdu) := by
  refine Keeps.bind (fun h hh => ⟨rfl, hh⟩) fun r => ?_
  by_cases hok : r.isOk = true
  · simp only [hok, if_true]
    exact Triple.pure fun _ h => h
  · simp only [hok]
    exact Triple.throw fun _ h => h

theorem keeps_randomScalarModN (turns : Nat) : Keeps world (randomScalarModN world turns) := by
  induction turns with
  | zero => exact Triple.throw fun _ h => h
  | succ turns ih =>
    intro h hh
    rw [randomScalarModN_succ]
    cases hfill : world.fill h with
    | none => exact ⟨hfill.symm, hh⟩
    | some k =>
      have hh' : Always (Makes world) (.drew (some k) :: h) := ⟨hfill.symm, hh⟩
      by_cases hk : inRange k = true
      · simp only [hk, if_true]
        exact hh'
      · simp only [hk]
        exact ih _ hh'

theorem keeps_exchangePoint (stage : String) (ours : Point) (wrap : Bytes → Bytes) (tag : Nat) :
    Keeps world (exchangePoint world stage ours wrap tag) :=
  (keeps_liftPace _).bind fun _ => (keeps_command _ _).bind fun _ => keeps_liftPace _

/-- **The whole driver** adds only events that the world makes. -/
theorem keeps_runPaceWithCan (crypto : Crypto) (can : Can) (world : World E) (turns : Nat) :
    Keeps world (runPaceWithCan crypto world turns can) := by
  have hset : Keeps world (setAuthenticationTemplate world passwordRefCan) :=
    (keeps_command _ _).bind fun _ => Triple.pure fun _ h => h
  have hnonce : Keeps world (getEncryptedNonce crypto world can) :=
    (keeps_command _ _).bind fun _ => keeps_liftPace _
  have hmap : ∀ s, Keeps world (mapNonceAndKeyAgreement world turns s) := by
    intro s
    refine (keeps_randomScalarModN turns).bind fun _ => (keeps_exchangePoint _ _ _ _).bind fun _ =>
      (keeps_randomScalarModN turns).bind fun _ => (keeps_exchangePoint _ _ _ _).bind fun _ => ?_
    exact Triple.pure fun _ h => h
  have hstep5 : ∀ state, Keeps world (runPaceStep5 crypto world state) := fun _ =>
    (keeps_liftPace _).bind fun _ => (keeps_command _ _).bind fun _ => keeps_liftPace _
  exact (hset.bind fun _ => hnonce.bind hmap).bind hstep5

/-! ## §2. Cards that keep up -/

variable (crypto can world) in
/-- A card that keeps up: what it knows is related to the phase of the driver, and it answers
    each command with a success that leads on. -/
structure Partner (Along : Phase → List (Event E) → Prop) : Prop where
  start : Along .start []
  drew : ∀ {p p' : Phase} {h : List (Event E)} {k : U384}, Along p h → p.drawn k = some p' →
    Along p' (.drew (some k) :: h)
  answer : ∀ {p : Phase} {h : List (Event E)} {apdu : Bytes}, Along p h →
    p.command crypto = some apdu →
    ∃ r p', world.transmitOutcome h apdu = .ok (.response r) ∧ r.isOk = true ∧
      p.answered crypto E can r.body = some p' ∧ Along p' (.sent apdu (.ok r) :: h)

variable {Along : Phase → List (Event E) → Prop}

/-- One answer of a card that keeps up. -/
theorem Partner.next (hpartner : Partner crypto can world Along) {p : Phase}
    {h : List (Event E)} {apdu : Bytes} (halong : Along p h)
    (hcommand : p.command crypto = some apdu) :
    ∃ p', p.next crypto can (Event.sent apdu (responseOf (world.transmitOutcome h apdu))) =
        some p' ∧
      Along p' (.sent apdu (responseOf (world.transmitOutcome h apdu)) :: h) := by
  obtain ⟨r, p', hr, hok, hanswered, halong'⟩ := hpartner.answer halong hcommand
  have hresponse : responseOf (world.transmitOutcome h apdu) = .ok r := by
    rw [hr]
    rfl
  rw [hresponse]
  refine ⟨p', ?_, halong'⟩
  rw [Phase.next, if_pos ⟨hcommand, hok⟩, hanswered]

/-- The relation holds along every history of the world. -/
theorem Partner.along (hpartner : Partner crypto can world Along) {p : Phase}
    {h : List (Event E)} (hmakes : Always (Makes world) h)
    (hat : Phase.after crypto can h = some p) : Along p h := by
  induction h generalizing p with
  | nil =>
    injection hat with hat
    exact hat ▸ hpartner.start
  | cons e h ih =>
    obtain ⟨q, hq, hnext⟩ := Option.bind_eq_some_iff.mp hat
    have halong := ih hmakes.2 hq
    cases e with
    | drew candidate =>
      cases candidate with
      | none => exact absurd hnext (by simp [Phase.next])
      | some k => exact hpartner.drew halong hnext
    | sent apdu answer =>
      obtain rfl : answer = responseOf (world.transmitOutcome h apdu) := hmakes.1
      have hcommand : q.command crypto = some apdu := by
        by_contra hcommand
        cases hresponse : responseOf (world.transmitOutcome h apdu) with
        | error e =>
          rw [hresponse] at hnext
          exact absurd hnext (by simp [Phase.next])
        | ok r =>
          rw [hresponse, Phase.next, if_neg (fun hboth => hcommand hboth.1)] at hnext
          exact absurd hnext (by simp)
      obtain ⟨p', hp', halong'⟩ := hpartner.next halong hcommand
      rw [hnext] at hp'
      injection hp' with hp'
      exact hp' ▸ halong'

/-- **A driver whose card keeps up** ends with a session, or is stopped by its own draws: it is
    still drawing, or got no random number, or a point of its own is infinity. -/
theorem run_of_partner (hpartner : Partner crypto can world Along) (turns : Nat) :
    (∀ session, (runPaceWithCan crypto world turns can []).1 = .ok session →
      Along (.done session) (runPaceWithCan crypto world turns can []).2) ∧
    (∀ e, (runPaceWithCan crypto world turns can []).1 = .error e →
      e = .drawing ∨ e = .failed .random ∨ (e = .failed .invalidPoint ∧
        ∃ p, Along p (runPaceWithCan crypto world turns can []).2 ∧ p.Stuck crypto)) := by
  have hmakes := keeps_runPaceWithCan crypto can world turns []
    trivial
  have hend := triple_runPaceWithCan crypto can world turns [] rfl
  generalize runPaceWithCan crypto world turns can [] = run at hmakes hend ⊢
  obtain ⟨r, h⟩ := run
  constructor
  · rintro session rfl
    exact hpartner.along hmakes hend
  · rintro e rfl
    cases hend with
    | drawing => exact .inl rfl
    | random => exact .inr (.inl rfl)
    | stuck hat hstuck => exact .inr (.inr ⟨rfl, _, hpartner.along hmakes hat, hstuck⟩)
    | refused hat hcommand hnone =>
      -- a card that keeps up answers this command with something that leads on
      obtain rfl := hmakes.1
      obtain ⟨p', hp', -⟩ := hpartner.next (hpartner.along hmakes.2 hat) hcommand
      rw [hp'] at hnone
      exact absurd hnone (by simp)

end

/-! ## §3. Reading commands and answers -/

/-- The data of a short command. -/
def commandData (apdu : Bytes) : Bytes := (apdu.drop 5).take (apdu.getD 4 0).toNat

theorem commandData_wrap {chain : Bool} {payload : Bytes} (h : payload.length ≤ 255) :
    commandData (wrapGeneralAuthenticate chain payload) = payload := by
  have hlen : (UInt8.ofNat payload.length).toNat = payload.length := UInt8.toNat_ofNat_of_lt' (by
    show payload.length < 256
    omega)
  simp [commandData, wrapGeneralAuthenticate, GeneralAuthenticate.intoApdu, hlen]

theorem parseExpect_dataObject (tag : UInt8) (value : Bytes) (htag : tag.toNat % 32 ≠ 31)
    (h : value.length < 2 ^ 32) :
    parseExpect tag.toNat (dataObject tag value) =
      .ok ⟨tag.toNat, value, (dataObject tag value).length⟩ := by
  have hparse : BerTlvAny.parse (dataObject tag value ++ []) = _ :=
    parse_tlv htag (tlv_dataObject h)
  rw [List.append_nil] at hparse
  simp [parseExpect, hparse, bind, Except.bind]

/-- **An object in the envelope is read back.** -/
theorem dynamicAuthObject_dynamicAuth {E : Type} (tag : UInt8) (value : Bytes) (t : Nat)
    (ht : tag.toNat = t) (htag : t % 32 ≠ 31) (h : value.length ≤ 97) :
    (dynamicAuthObject t (dynamicAuth tag value) : Except (PaceError E) Bytes) = .ok value := by
  subst ht
  have hinner : (dataObject tag value).length < 2 ^ 32 := by
    rw [length_dataObject_short (by omega)]
    omega
  have houter := parseExpect_dataObject 0x7C _ (by decide) hinner
  have hobject := parseExpect_dataObject tag value htag (by omega)
  simp only [dynamicAuthObject, dynamicAuth]
  rw [show (0x7C : Nat) = (0x7C : UInt8).toNat from rfl, houter]
  simp only [Except.mapError, bind, Except.bind, hobject]
  rfl

theorem length_dynamicAuth (tag : UInt8) {value : Bytes} (h : value.length ≤ 97) :
    (dynamicAuth tag value).length ≤ 255 := by
  have hinner : (dataObject tag value).length = value.length + 2 :=
    length_dataObject_short (by omega)
  rw [dynamicAuth, length_dataObject_short (by omega)]
  omega

/-- The object of a tag in the envelope of a command. -/
def commandObject (tag : Nat) (apdu : Bytes) : Option Bytes :=
  (dynamicAuthObject tag (commandData apdu) : Except (PaceError Empty) Bytes).toOption

theorem commandObject_wrap {chain : Bool} (tag : UInt8) {value : Bytes} (t : Nat)
    (ht : tag.toNat = t) (htag : t % 32 ≠ 31) (h : value.length ≤ 97) :
    commandObject t (wrapGeneralAuthenticate chain (dynamicAuth tag value)) = some value := by
  rw [commandObject, commandData_wrap (length_dynamicAuth tag h),
    dynamicAuthObject_dynamicAuth tag value t ht htag h]
  rfl

theorem length_encodeUncompressed {point : Point} {octets : Bytes}
    (h : point.encodeUncompressed = some octets) : octets.length = 97 := by
  obtain ⟨⟨x, y⟩, -, rfl⟩ := Option.map_eq_some_iff.mp h
  rw [List.length_cons, List.length_append, octets_length, octets_length]

/-! ## §4. A card of the protocol -/

/-- A card: its access number, and what it draws. -/
structure Chip where
  can : Can
  s : Bytes
  y : U384
  v : U384
  length_s : s.length = nonceLen
  y_range : inRange y = true
  v_range : inRange v = true

/-- What a card remembers of a handshake. -/
inductive ChipPhase where
  | idle
  | selected
  | challenged
  | mapped (g : Point)
  | agreed (g : Point) (uPcd : Point)
  | opened (session : PaceSession)

namespace Chip

section
variable (crypto : Crypto) (chip : Chip)

/-- The nonce under the key of the access number. -/
def encryptedNonce : Bytes :=
  crypto.cbcEncrypt (kdfAes256 crypto chip.can.bytes .password) zeroIv chip.s

/-- What the card makes of a command: where it goes on, and the body of its answer.  `none` is a
    refusal. -/
def react : ChipPhase → Bytes → Option (ChipPhase × Bytes)
  | .idle, apdu => if apdu = setAtCommand passwordRefCan then some (.selected, []) else none
  | .selected, apdu =>
    if apdu = nonceCommand then some (.challenged, dynamicAuth 0x80 (chip.encryptedNonce crypto))
    else none
  | .challenged, apdu => do
    let xPcd ← (commandObject 0x81 apdu).bind AffinePoint.decodeUncompressed
    let octets ← (AffinePoint.generator.scalarMul chip.y).encodeUncompressed
    let sG := AffinePoint.generator.scalarMul (scalarFromNonce chip.s)
    return (.mapped (sG.add (xPcd.scalarMul chip.y)), dynamicAuth 0x82 octets)
  | .mapped g, apdu => do
    let uPcd ← (commandObject 0x83 apdu).bind AffinePoint.decodeUncompressed
    let octets ← (g.scalarMul chip.v).encodeUncompressed
    return (.agreed g uPcd, dynamicAuth 0x84 octets)
  | .agreed g uPcd, apdu => do
    let tPcd ← commandObject 0x85 apdu
    let (kX, _) ← (uPcd.scalarMul chip.v).coords
    let tokenForUs ← encodeAuthToken (g.scalarMul chip.v)
    let tokenForDriver ← encodeAuthToken uPcd
    let session := sessionOf crypto kX
    if tPcd = aes256CmacTruncated crypto.toAes session.kMac tokenForUs then
      let tPicc := aes256CmacTruncated crypto.toAes session.kMac tokenForDriver
      return (.opened session, dynamicAuth 0x86 tPicc)
    else none
  | .opened _, _ => none

/-- The card after a history: a refusal puts it back to the start. -/
def after {E : Type} : List (Event E) → ChipPhase
  | [] => .idle
  | .drew _ :: h => after h
  | .sent apdu _ :: h => ((chip.react crypto (after h) apdu).map Prod.fst).getD .idle

/-- The status of a success, and of a refusal. -/
def answer : Option (ChipPhase × Bytes) → ResponseApdu
  | some (_, body) => ⟨body, 0x90, 0x00⟩
  | none => ⟨[], 0x63, 0x00⟩

/-- The world with this card in it. -/
def world {E : Type} (fill : List (Event E) → Option U384) : World E where
  transmitOutcome h apdu := .ok (.response (answer (chip.react crypto (chip.after crypto h) apdu)))
  fill := fill

end

end Chip

/-! ## §5. Points that both ends know -/

open AffinePoint

theorem not_dvd_of_inRange {k : U384} (h : inRange k = true) : ¬ n.toNat ∣ k.toNat := by
  simp only [inRange, Bool.and_eq_true, decide_eq_true_eq] at h
  intro hdvd
  have hlt : k.toNat < n.toNat := h.2
  have hzero : k.toNat = 0 := Nat.eq_zero_of_dvd_of_lt hdvd hlt
  apply h.1
  rw [← BitVec.toNat_inj, hzero]
  exact BitVec.toNat_zero.symm

/-- A multiple by a drawn scalar is infinity only where the point already was. -/
theorem not_dvd_mul {k : U384} {m : Nat} (hk : inRange k = true) (hm : ¬ n.toNat ∣ m) :
    ¬ n.toNat ∣ k.toNat * m := by
  intro hdvd
  obtain h | h := (Nat.Prime.dvd_mul n_prime).mp hdvd
  · exact not_dvd_of_inRange hk h
  · exact hm h

/-- A multiple that is not infinity has an encoding, which reads back. -/
theorem encode_of_multiple {point : Point} {m : Nat} (h : Multiple point m) (hm : ¬ n.toNat ∣ m) :
    ∃ octets, point.encodeUncompressed = some octets ∧ octets.length = 97 ∧
      decodeUncompressed octets = some point := by
  cases hoctets : point.encodeUncompressed with
  | none => exact absurd (h.eq_infinity_iff.mp (encodeUncompressed_eq_none.mp hoctets)) hm
  | some octets =>
    exact ⟨octets, rfl, length_encodeUncompressed hoctets, decode_of_encode h.valid hoctets⟩

/-- A multiple that has an encoding is not infinity. -/
theorem not_dvd_of_encode {point : Point} {m : Nat} {octets : Bytes} (h : Multiple point m)
    (hoctets : point.encodeUncompressed = some octets) : ¬ n.toNat ∣ m := by
  intro hdvd
  rw [← h.eq_infinity_iff] at hdvd
  rw [encodeUncompressed_eq_none.mpr hdvd] at hoctets
  exact absurd hoctets (by simp)

/-- A multiple over which a token can be made is not infinity. -/
theorem not_dvd_of_token {point : Point} {m : Nat} {token : Bytes} (h : Multiple point m)
    (htoken : encodeAuthToken point = some token) : ¬ n.toNat ∣ m := by
  obtain ⟨octets, hoctets, -⟩ := Option.map_eq_some_iff.mp htoken
  exact not_dvd_of_encode h hoctets

/-- A token can be made over a multiple that is not infinity. -/
theorem token_of_multiple {point : Point} {m : Nat} (h : Multiple point m)
    (hm : ¬ n.toNat ∣ m) : ∃ token, encodeAuthToken point = some token := by
  obtain ⟨octets, hoctets, -, -⟩ := encode_of_multiple h hm
  exact ⟨_, Option.map_eq_some_iff.mpr ⟨octets, hoctets, rfl⟩⟩

/-- The scalar of the mapped generator, over the card's nonce and both scalars of the mapping. -/
def mappedScalar (s : Bytes) (x y : U384) : Nat := (scalarFromNonce s).toNat + x.toNat * y.toNat

theorem multiple_mappedGenerator (s : Bytes) (x y : U384) :
    Multiple (mappedGenerator s x (generator.scalarMul y)) (mappedScalar s x y) := by
  have hs := multiple_generator.scalarMul (scalarFromNonce s)
  have hxy := (multiple_generator.scalarMul y).scalarMul x
  rw [mul_one] at hs hxy
  exact hs.add hxy

/-- **Both ends map to one generator.** -/
theorem mappedGenerator_comm (s : Bytes) (x y : U384) :
    (generator.scalarMul (scalarFromNonce s)).add ((generator.scalarMul x).scalarMul y) =
      mappedGenerator s x (generator.scalarMul y) := by
  have hyx := multiple_mappedGenerator s y x
  rw [mappedScalar, mul_comm] at hyx
  exact hyx.unique (multiple_mappedGenerator s x y)

/-- **Both ends have one shared point.** -/
theorem scalarMul_comm {g : Point} {m : Nat} (h : Multiple g m) (u v : U384) :
    (g.scalarMul u).scalarMul v = (g.scalarMul v).scalarMul u := by
  have huv := (h.scalarMul u).scalarMul v
  rw [Nat.mul_left_comm] at huv
  exact huv.unique ((h.scalarMul v).scalarMul u)

section
variable {E : Type} {crypto : Crypto} {s : Bytes} {y v : U384 → U384} {h : List (Event E)}

variable (s y v h) in
/-- The phases of a driver whose card is at the nonce `s` and takes the scalars `y x` and `v u`
    over the driver's `x` and `u`; these are the scalars drawn in the history. -/
inductive Mapped : Phase → Prop
  | start : scalars h = [] → Mapped .start
  | selected : scalars h = [] → Mapped .selected
  | challenged : scalars h = [] → Mapped (.challenged s)
  | mapping {x : U384} : inRange x = true → scalars h = [x] → Mapped (.mapping s x)
  | mapped {x : U384} : inRange x = true → scalars h = [x] →
      Mapped (.mapped (mappedGenerator s x (generator.scalarMul (y x))))
  | agreeing {x u : U384} : inRange x = true → scalars h = [x, u] → inRange u = true →
      Mapped (.agreeing (mappedGenerator s x (generator.scalarMul (y x))) u)
  | agreed {x u : U384} {g : Point} : g = mappedGenerator s x (generator.scalarMul (y x)) →
      inRange x = true → scalars h = [x, u] → inRange u = true →
      Mapped (.agreed g u (g.scalarMul (v u)))
  | done {session : PaceSession} : Mapped (.done session)

/-- A command draws nothing. -/
theorem Mapped.sent {p : Phase} {apdu : Bytes}
    {answer : Except (TransportDispatchError E) ResponseApdu} (hp : Mapped s y v h p) :
    Mapped s y v (.sent apdu answer :: h) p := by
  cases hp with
  | start hdrawn => exact .start hdrawn
  | selected hdrawn => exact .selected hdrawn
  | challenged hdrawn => exact .challenged hdrawn
  | mapping hx hdrawn => exact .mapping hx hdrawn
  | mapped hx hdrawn => exact .mapped hx hdrawn
  | agreeing hx hdrawn hu => exact .agreeing hx hdrawn hu
  | agreed hg hx hdrawn hu => exact .agreed hg hx hdrawn hu
  | done => exact .done

theorem scalars_drew (k : U384) (h : List (Event E)) :
    scalars (.drew (some k) :: h) = if inRange k then scalars h ++ [k] else scalars h := rfl

/-- A number drawn by the driver. -/
theorem Mapped.drew {p p' : Phase} {k : U384} (hp : Mapped s y v h p)
    (hnext : p.drawn k = some p') : Mapped s y v (.drew (some k) :: h) p' := by
  cases hp with
  | challenged hdrawn =>
    injection hnext with hnext
    by_cases hk : inRange k = true
    · rw [if_pos hk] at hnext
      exact hnext ▸ .mapping hk (by rw [scalars_drew, if_pos hk, hdrawn, List.nil_append])
    · rw [if_neg hk] at hnext
      exact hnext ▸ .challenged (by rw [scalars_drew, if_neg hk, hdrawn])
  | mapped hx hdrawn =>
    injection hnext with hnext
    by_cases hk : inRange k = true
    · rw [if_pos hk] at hnext
      exact hnext ▸ .agreeing hx (by rw [scalars_drew, if_pos hk, hdrawn]; rfl) hk
    · rw [if_neg hk] at hnext
      exact hnext ▸ .mapped hx (by rw [scalars_drew, if_neg hk, hdrawn])
  | _ => exact absurd hnext (by simp [Phase.drawn])

/-- Step 5 derives its keys of a point whose multiple by our scalar is not infinity. -/
theorem derived_of_multiple (crypto : Crypto) {point : Point} {m : Nat} {u : U384}
    (h : Multiple point m) (hm : ¬ n.toNat ∣ u.toNat * m) :
    ∃ keys, derived crypto u point = some keys := by
  obtain ⟨octets, hoctets, -, -⟩ := encode_of_multiple (h.scalarMul u) hm
  obtain ⟨⟨kX, kY⟩, hcoords, -⟩ := Option.map_eq_some_iff.mp hoctets
  obtain ⟨token, htoken⟩ := token_of_multiple h fun hdvd => hm (Dvd.dvd.mul_left hdvd _)
  exact ⟨_, derived_eq_some.mpr ⟨kX, kY, token, hcoords, htoken, rfl⟩⟩

/-- **Where such a driver is stuck**: its mapped generator is infinity. -/
theorem Mapped.stuck {p : Phase} (hv : ∀ u, inRange u = true → inRange (v u) = true)
    (hp : Mapped s y v h p) (hstuck : p.Stuck crypto) :
    ∃ x, (scalars h).head? = some x ∧ inRange x = true ∧
      n.toNat ∣ mappedScalar s x (y x) := by
  obtain ⟨hcommand, hdraws, hdone⟩ := hstuck
  cases hp with
  | start => exact absurd hcommand (by simp [Phase.command])
  | selected => exact absurd hcommand (by simp [Phase.command])
  | challenged => exact absurd hdraws (by simp [Phase.draws])
  | @mapping x hx hdrawn =>
    have hX := multiple_generator.scalarMul x
    have hinfinity := encodeUncompressed_eq_none.mp (Option.map_eq_none_iff.mp hcommand)
    rw [hX.eq_infinity_iff, mul_one] at hinfinity
    exact absurd hinfinity (not_dvd_of_inRange hx)
  | mapped => exact absurd hdraws (by simp [Phase.draws])
  | @agreeing x u hx hdrawn hu =>
    have hU := (multiple_mappedGenerator s x (y x)).scalarMul u
    have hinfinity := encodeUncompressed_eq_none.mp (Option.map_eq_none_iff.mp hcommand)
    rw [hU.eq_infinity_iff] at hinfinity
    refine ⟨x, by rw [hdrawn, List.head?_cons], hx, ?_⟩
    by_contra hm
    exact not_dvd_mul hu hm hinfinity
  | @agreed x u g hgen hx hdrawn hu =>
    refine ⟨x, by rw [hdrawn, List.head?_cons], hx, ?_⟩
    by_contra hm
    have hg := multiple_mappedGenerator s x (y x)
    rw [← hgen] at hg
    obtain ⟨keys, hkeys⟩ := derived_of_multiple crypto (hg.scalarMul (v u))
      (not_dvd_mul hu (not_dvd_mul (hv u hu) hm))
    rw [command_agreed, hkeys] at hcommand
    exact absurd hcommand (by simp)
  | done => exact absurd rfl (hdone _)

/-! ## §6. The driver and the card agree -/

variable {chip : Chip}

/-- What the card remembers at a phase of the driver. -/
def chipPhase : Phase → ChipPhase
  | .start => .idle
  | .selected => .selected
  | .challenged _ | .mapping _ _ => .challenged
  | .mapped g | .agreeing g _ => .mapped g
  | .agreed g u _ => .agreed g (g.scalarMul u)
  | .done session => .opened session

/-- A number drawn by the driver leaves the card where it is. -/
theorem chipPhase_drawn {p p' : Phase} {k : U384} (hdrawn : p.drawn k = some p') :
    chipPhase p' = chipPhase p := by
  cases p with
  | challenged s =>
    injection hdrawn with hdrawn
    rw [← hdrawn]
    split <;> rfl
  | mapped g =>
    injection hdrawn with hdrawn
    rw [← hdrawn]
    split <;> rfl
  | _ => exact absurd hdrawn (by simp [Phase.drawn])

/-- The driver in step with the card. -/
def InStep (chip : Chip) (h : List (Event E)) (p : Phase) : Prop :=
  Mapped chip.s (fun _ => chip.y) (fun _ => chip.v) h p

theorem decryptedNonce_encrypted (crypto : Crypto) (chip : Chip) :
    (decryptedNonce crypto chip.can (dynamicAuth 0x80 (chip.encryptedNonce crypto)) :
      Except (PaceError E) Bytes) = .ok chip.s := by
  have hblock : chip.s.length % 16 = 0 := by
    rw [chip.length_s]
    rfl
  have hlength : (chip.encryptedNonce crypto).length = nonceLen := by
    rw [Chip.encryptedNonce, crypto.length_cbcEncrypt _ _ _ hblock, chip.length_s]
  have hobject : (dynamicAuthObject 0x80 (dynamicAuth 0x80 (chip.encryptedNonce crypto)) :
      Except (PaceError E) Bytes) = _ :=
    dynamicAuthObject_dynamicAuth 0x80 _ 0x80 rfl (by decide) (by rw [hlength]; decide)
  have hplain : aes256CbcDecryptNoPadding crypto.toAes
      (kdfAes256 crypto chip.can.bytes .password) zeroIv (chip.encryptedNonce crypto) =
        some chip.s := by
    rw [aes256CbcDecryptNoPadding, hlength, if_pos (by decide), Chip.encryptedNonce,
      crypto.cbcDecrypt_cbcEncrypt _ _ _ hblock]
  simp only [decryptedNonce, bind_eq_ok, ensure_eq_ok, okOr_eq_ok, pure_eq_ok, decide_eq_true_eq]
  exact ⟨_, hobject, (), hlength, _, hplain, (), chip.length_s, rfl⟩

/-- A point in an answer. -/
theorem answeredPoint_dynamicAuth (tag : UInt8) {octets : Bytes} {point : Point} (t : Nat)
    (ht : tag.toNat = t) (htag : t % 32 ≠ 31) (hlength : octets.length = 97)
    (hdecode : decodeUncompressed octets = some point) :
    (answeredPoint t (dynamicAuth tag octets) : Except (PaceError E) Point) = .ok point := by
  simp only [answeredPoint, bind_eq_ok, okOr_eq_ok]
  exact ⟨octets, dynamicAuthObject_dynamicAuth tag octets t ht htag hlength.le, hdecode⟩

/-- The card reads a point that the driver sends. -/
theorem commandPoint_wrap (tag : UInt8) {octets : Bytes} {point : Point} (t : Nat)
    (ht : tag.toNat = t) (htag : t % 32 ≠ 31) (hlength : octets.length = 97)
    (hdecode : decodeUncompressed octets = some point) :
    (commandObject t (wrapGeneralAuthenticate true (dynamicAuth tag octets))).bind
      decodeUncompressed = some point := by
  rw [commandObject_wrap tag t ht htag hlength.le, Option.bind_some, hdecode]

/-- The driver takes the token over its own point under the key of the session. -/
theorem finishedSession_token {session : PaceSession} {ours : Point} {token : Bytes}
    (htoken : encodeAuthToken ours = some token) :
    (finishedSession crypto session ours
      (dynamicAuth 0x86 (aes256CmacTruncated crypto.toAes session.kMac token)) :
        Except (PaceError E) PaceSession) = .ok session := by
  have hlength := length_cmacTruncated crypto.toAes session.kMac token
  refine finishedSession_eq_ok.mpr ⟨token, htoken, ?_, rfl⟩
  exact dynamicAuthObject_dynamicAuth 0x86 _ 0x86 rfl (by decide) (by omega)

variable (crypto h) in
/-- The card answers a command of the driver, and both go on in step. -/
def GoesOn (chip : Chip) (p : Phase) (apdu : Bytes) : Prop :=
  ∃ body p', chip.react crypto (chipPhase p) apdu = some (chipPhase p', body) ∧
    p.answered crypto E chip.can body = some p' ∧ InStep chip h p'

/-- Our mapping point is answered with the card's. -/
theorem goesOn_mapping {x : U384} {octets : Bytes} (hx : inRange x = true)
    (hdrawn : scalars h = [x])
    (hoctets : (generator.scalarMul x).encodeUncompressed = some octets) :
    GoesOn crypto h chip (.mapping chip.s x) (mapCommand octets) := by
  have hX := multiple_generator.scalarMul x
  have hY := multiple_generator.scalarMul chip.y
  have hone : ¬ n.toNat ∣ 1 := fun hdvd => n_prime.one_lt.not_ge (Nat.le_of_dvd one_pos hdvd)
  obtain ⟨theirs, htheirs, hlength, hdecode⟩ :=
    encode_of_multiple hY (not_dvd_mul chip.y_range hone)
  have hread := commandPoint_wrap 0x81 0x81 rfl (by decide)
    (length_encodeUncompressed hoctets) (decode_of_encode hX.valid hoctets)
  refine ⟨dynamicAuth 0x82 theirs, _, ?_, ?_, .mapped hx hdrawn⟩
  · rw [chipPhase, Chip.react, mapCommand, hread, htheirs]
    simp only [bind, Option.bind, mappedGenerator_comm]
    rfl
  · rw [Phase.answered, answeredPoint_dynamicAuth 0x82 0x82 rfl (by decide) hlength hdecode]
    rfl

/-- Our point of the agreement is answered with the card's. -/
theorem goesOn_agreeing {x u : U384} {octets : Bytes} (hx : inRange x = true)
    (hdrawn : scalars h = [x, u]) (hu : inRange u = true)
    (hoctets : ((mappedGenerator chip.s x (generator.scalarMul chip.y)).scalarMul
      u).encodeUncompressed = some octets) :
    GoesOn crypto h chip (.agreeing (mappedGenerator chip.s x (generator.scalarMul chip.y)) u)
      (agreeCommand octets) := by
  have hg := multiple_mappedGenerator chip.s x chip.y
  generalize hgen : mappedGenerator chip.s x (generator.scalarMul chip.y) = g at hg hoctets ⊢
  have hU := hg.scalarMul u
  -- our point has an encoding, so the mapped generator is not infinity, nor the card's point
  have hm : ¬ n.toNat ∣ mappedScalar chip.s x chip.y := fun hdvd =>
    not_dvd_of_encode hU hoctets (Dvd.dvd.mul_left hdvd _)
  obtain ⟨theirs, htheirs, hlength, hdecode⟩ :=
    encode_of_multiple (hg.scalarMul chip.v) (not_dvd_mul chip.v_range hm)
  have hread := commandPoint_wrap 0x83 0x83 rfl (by decide)
    (length_encodeUncompressed hoctets) (decode_of_encode hU.valid hoctets)
  refine ⟨dynamicAuth 0x84 theirs, _, ?_, ?_, .agreed hgen.symm hx hdrawn hu⟩
  · rw [chipPhase, Chip.react, agreeCommand, hread, htheirs]
    rfl
  · rw [Phase.answered, answeredPoint_dynamicAuth 0x84 0x84 rfl (by decide) hlength hdecode]
    rfl

/-- Our token is answered with the card's. -/
theorem goesOn_agreed {g : Point} {m : Nat} {u : U384} {apdu : Bytes} (hg : Multiple g m)
    (hu : inRange u = true)
    (hcommand : (Phase.agreed g u (g.scalarMul chip.v)).command crypto = some apdu) :
    GoesOn crypto h chip (.agreed g u (g.scalarMul chip.v)) apdu := by
  rw [command_agreed] at hcommand
  obtain ⟨keys, hkeys, rfl⟩ := Option.map_eq_some_iff.mp hcommand
  obtain ⟨kX, kY, tokenForUs, hcoords, htokenForUs, rfl⟩ := derived_eq_some.mp hkeys
  -- the card's point has a token, so the mapped generator is not infinity, nor our point
  have hm : ¬ n.toNat ∣ m := fun hdvd =>
    not_dvd_of_token (hg.scalarMul chip.v) htokenForUs (Dvd.dvd.mul_left hdvd _)
  obtain ⟨tokenForDriver, htokenForDriver⟩ := token_of_multiple (hg.scalarMul u)
    (not_dvd_mul hu hm)
  have hread : commandObject 0x85
      (tokenCommand (aes256CmacTruncated crypto.toAes (sessionOf crypto kX).kMac tokenForUs)) =
        some (aes256CmacTruncated crypto.toAes (sessionOf crypto kX).kMac tokenForUs) := by
    have hlength := length_cmacTruncated crypto.toAes (sessionOf crypto kX).kMac tokenForUs
    exact commandObject_wrap 0x85 0x85 rfl (by decide) (by omega)
  have hcoords' : ((g.scalarMul u).scalarMul chip.v).coords = some (kX, kY) := by
    rw [scalarMul_comm hg, hcoords]
  refine ⟨dynamicAuth 0x86
      (aes256CmacTruncated crypto.toAes (sessionOf crypto kX).kMac tokenForDriver),
    .done (sessionOf crypto kX), ?_, ?_, .done⟩
  · rw [chipPhase, Chip.react, hread]
    simp only [bind, Option.bind, hcoords', htokenForUs, htokenForDriver, if_true]
    rfl
  · rw [answered_agreed, hkeys, Option.bind_some, finishedSession_token htokenForDriver]
    rfl

/-- **One exchange**: the card answers the driver's command, and both go on in step. -/
theorem InStep.answer {p : Phase} {apdu : Bytes} (hstep : InStep chip h p)
    (hcommand : p.command crypto = some apdu) : GoesOn crypto h chip p apdu := by
  cases hstep with
  | start hdrawn =>
    obtain rfl := Option.some.inj hcommand
    exact ⟨[], .selected, by rw [chipPhase, Chip.react, if_pos rfl, chipPhase], rfl,
      .selected hdrawn⟩
  | selected hdrawn =>
    obtain rfl := Option.some.inj hcommand
    refine ⟨_, .challenged chip.s, by rw [chipPhase, Chip.react, if_pos rfl, chipPhase], ?_,
      .challenged hdrawn⟩
    simp only [Phase.answered, decryptedNonce_encrypted]
    rfl
  | mapping hx hdrawn =>
    obtain ⟨octets, hoctets, rfl⟩ := Option.map_eq_some_iff.mp hcommand
    exact goesOn_mapping hx hdrawn hoctets
  | agreeing hx hdrawn hu =>
    obtain ⟨octets, hoctets, rfl⟩ := Option.map_eq_some_iff.mp hcommand
    exact goesOn_agreeing hx hdrawn hu hoctets
  | @agreed x u g hgen hx hdrawn hu =>
    have hg := multiple_mappedGenerator chip.s x chip.y
    rw [← hgen] at hg
    exact goesOn_agreed hg hu hcommand
  | _ => exact absurd hcommand (by simp [Phase.command])

/-- The card of the protocol keeps up. -/
theorem chip_partner (crypto : Crypto) (chip : Chip) (fill : List (Event E) → Option U384) :
    Partner crypto chip.can (chip.world crypto fill) fun p h =>
      InStep chip h p ∧ chip.after crypto h = chipPhase p where
  start := ⟨.start rfl, rfl⟩
  drew := by
    rintro p p' h k ⟨hstep, hchip⟩ hdrawn
    exact ⟨Mapped.drew hstep hdrawn, hchip.trans (chipPhase_drawn hdrawn).symm⟩
  answer := by
    rintro p h apdu ⟨hstep, hchip⟩ hcommand
    obtain ⟨body, p', hreact, hanswered, hstep'⟩ := hstep.answer hcommand
    rw [← hchip] at hreact
    refine ⟨⟨body, 0x90, 0x00⟩, p', ?_, isOk_success body, hanswered, Mapped.sent hstep', ?_⟩
    · simp only [Chip.world, hreact, Chip.answer]
    · rw [Chip.after, hreact]
      rfl

/-- **A handshake with a card of the same access number** ends with one session at both ends,
    whatever both draw.  The driver has no session only while it is still drawing, when it got no
    random number, or when the scalar it drew first, which maps the nonce, and the card's nonce and
    scalar add up to a multiple of the order, so that the mapped generator is infinity. -/
theorem handshake_agrees (crypto : Crypto) (chip : Chip) (fill : List (Event E) → Option U384)
    (turns : Nat) :
    let run := runPaceWithCan crypto (chip.world crypto fill) turns chip.can []
    (∀ session, run.1 = .ok session → chip.after crypto run.2 = .opened session) ∧
    (∀ e, run.1 = .error e → e = .drawing ∨ e = .failed .random ∨ (e = .failed .invalidPoint ∧
      ∃ x, (scalars run.2).head? = some x ∧ inRange x = true ∧
        n.toNat ∣ (scalarFromNonce chip.s).toNat + x.toNat * chip.y.toNat)) := by
  intro run
  obtain ⟨hok, herror⟩ := run_of_partner (chip_partner crypto chip fill) turns
  constructor
  · intro session hrun
    exact (hok session hrun).2
  · intro e hrun
    obtain hdrawing | hrandom | ⟨he, p, ⟨hstep, -⟩, hstuck⟩ := herror e hrun
    · exact .inl hdrawing
    · exact .inr (.inl hrandom)
    · exact .inr (.inr ⟨he, Mapped.stuck (fun _ _ => chip.v_range) hstep hstuck⟩)

/-! ## §7. One handshake -/

/-- The access number 123456. -/
def sampleCan : Can := ⟨[0x31, 0x32, 0x33, 0x34, 0x35, 0x36], rfl, rfl, rfl⟩

/-- A card with this number that draws the nonce 7 and the scalars 11 and 13. -/
def sampleChip : Chip := ⟨sampleCan, List.replicate 15 0 ++ [7], 11, 13, rfl, by decide +kernel,
  by decide +kernel⟩

/-- A generator that gives 0, which is out of range, and then 3 and 5. -/
def sampleFill (h : List (Event Unit)) : Option U384 :=
  some (if h.length = 2 then 0 else BitVec.ofNat 384 h.length)

/-- The key of the number, and the nonce under it. -/
def sampleKPi : Aes256Key :=
  ⟨octets 32 0x8DF3278FB32026E66277357FCD6C826DBEB3DE32088B2531757D753940185923, octets_length _ _⟩

def sampleNonce : Block := ⟨octets 16 0x75C0E0F5B38B1405B60D49DF7A964164, octets_length _ _⟩

/-- The abscissa of the point that driver and card share, and the keys of their session. -/
def sharedX : Nat := 0x57C16898615D0216A6FC7C2541BD6A96CFAB007C432E9B343467BDC727D2477E708B261847AF332AAB5075C9C1CB1FF1

def sharedSession : PaceSession where
  kEnc := ⟨octets 32 0x048296B483F20BD48164A25B1A3299E46E01BBC2CACD9D324E286FA872DF37FE, octets_length _ _⟩
  kMac := ⟨octets 32 0x80D96BA7174F664919632FF2EE2F192C37EC5FFE3A7D07121832A23D16406CBE, octets_length _ _⟩
  ssc := .initial

/-- The same of a driver and its mirror. -/
def mirroredX : Nat := 0x809C374300D274EC3FEFE4A7669E68C78CA9DE199477D64097288BCA6D6B5E4C015A623448CDE3653A1ECD15AB44BA3B

def mirroredSession : PaceSession where
  kEnc := ⟨octets 32 0x67D482589622788F41FC987AE49EA6C104879AB0AFBD654AF9DEE1CA93340B84, octets_length _ _⟩
  kMac := ⟨octets 32 0xF9D7ECC2DAB874D62327544D8E331BD60D5D78243C32AB6FFEB19948F993B492, octets_length _ _⟩
  ssc := .initial

/-- What a token is computed over: a public key of the mechanism. -/
def tokenData (x y : Nat) : Bytes :=
  [0x7F, 0x49, 0x6F, 0x06, 0x0A] ++ paceMechanismOid ++ [0x86, 0x61, 0x04] ++ octets 48 x ++
    octets 48 y

/-- SHA-256 and AES-256 at the messages of two handshakes: of this driver with this card, and with
    a mirror that gives the same encrypted nonce. -/
def sampleCrypto : Crypto := .ofValues {
  counters := []
  blocks := [((sampleKPi.bytes, zeroIv.bytes), ⟨sampleChip.s, rfl⟩, sampleNonce)]
  codes := [
    -- over the card's point, over the driver's, and over the one of driver and mirror
    ((sharedSession.kMac.bytes, tokenData
        0x6A925307E779B3EC82BCC15031FAC1C387742C3FF47EF25CEC23453A18E4BF480CC778C8AE3900779FC4F409F3E91910
        0x7CC14668DD8E293070213B63F9EF7BE15B149DF9CFA18C63C84E2F3A931ACB4180D04F9A4D7944E20D5C250A24737A0E),
      ⟨octets 16 0xBE5E659F20C72D9D91F751F384928C61, octets_length _ _⟩),
    ((sharedSession.kMac.bytes, tokenData
        0x06BA64659FDC776F366DB7E837129AFEFF1BBFFCE24A41ECBC6FA17855C52A8194CABED9A0A5B63D3DCE58CBF8322011
        0x0716CFD498F9C7EC589D37750C3E62BC4BC62977D24A709792D67D097F40D453A4F3BCA3CE75382EF518E97AEADEC6BA),
      ⟨octets 16 0x3A738C7049302420CFF272FA28A448F4, octets_length _ _⟩),
    ((mirroredSession.kMac.bytes, tokenData
        0x38A27891DB57D152EA4DD97BE670F62D383C68977BE0E0CC141E0A47AA98AA4F2F847953A2B08D653257424158F07D1E
        0x1D0278B1032FEC0947CE7228118459762D28D36C25A56813F21C10854329ADD4E00C8F72F4D6DB87C5748BD7E85E148C),
      ⟨octets 16 0x30915427078931AE799C7ABB226A373C, octets_length _ _⟩)] }
  [(sampleCan.bytes ++ [0, 0, 0, 3], sampleKPi),
    (octets 48 sharedX ++ [0, 0, 0, 1], sharedSession.kEnc),
    (octets 48 sharedX ++ [0, 0, 0, 2], sharedSession.kMac),
    (octets 48 mirroredX ++ [0, 0, 0, 1], mirroredSession.kEnc),
    (octets 48 mirroredX ++ [0, 0, 0, 2], mirroredSession.kMac)]

/-- The driver against this card. -/
def sampleRun : Except (Stop Unit) PaceSession × List (Event Unit) :=
  runPaceWithCan sampleCrypto (sampleChip.world sampleCrypto sampleFill) 2 sampleCan []

/-- It ends with this session, and so does the card. -/
theorem sampleChip_agrees :
    sampleRun.1 = .ok sharedSession ∧
      sampleChip.after sampleCrypto sampleRun.2 = .opened sharedSession := by
  have hsession : sampleRun.1 = .ok sharedSession := by decide +kernel
  exact ⟨hsession, (handshake_agrees sampleCrypto sampleChip sampleFill 2).1 _ hsession⟩

/-! ## §8. A mirror -/

/-- The one object in the envelope of a command, sent back under the next tag. -/
def reflected (apdu : Bytes) : Option Bytes := do
  let outer ← (parseExpect 0x7C (commandData apdu)).toOption
  let inner ← (BerTlvAny.parse outer.value).toOption
  return dynamicAuth (UInt8.ofNat (inner.tag + 1)) inner.value

/-- A card that knows nothing: any nonce, and the driver's own points and token. -/
def mirrorAnswer (z : Block) (apdu : Bytes) : Bytes :=
  if apdu = setAtCommand passwordRefCan then []
  else if apdu = nonceCommand then dynamicAuth 0x80 z.bytes
  else (reflected apdu).getD []

/-- The world with a mirror in it. -/
def mirrorWorld (z : Block) (fill : List (Event E) → Option U384) : World E where
  transmitOutcome _ apdu := .ok (.response ⟨mirrorAnswer z apdu, 0x90, 0x00⟩)
  fill := fill

theorem reflected_wrap {chain : Bool} (tag : UInt8) {value : Bytes}
    (htag : tag.toNat % 32 ≠ 31) (h : value.length ≤ 97) :
    reflected (wrapGeneralAuthenticate chain (dynamicAuth tag value)) =
      some (dynamicAuth (tag + 1) value) := by
  have hinner : (dataObject tag value).length < 2 ^ 32 := by
    rw [length_dataObject_short (by omega)]
    omega
  have houter := parseExpect_dataObject 0x7C (dataObject tag value) (by decide) hinner
  have hparse : BerTlvAny.parse (dataObject tag value ++ []) = _ :=
    parse_tlv htag (tlv_dataObject (by omega))
  rw [List.append_nil] at hparse
  have hnext : UInt8.ofNat (tag.toNat + 1) = tag + 1 := by
    rw [UInt8.ofNat_add, UInt8.ofNat_toNat]
    rfl
  rw [reflected, commandData_wrap (length_dynamicAuth tag h), dynamicAuth,
    show (0x7C : Nat) = (0x7C : UInt8).toNat from rfl, houter]
  simp only [Except.toOption, bind, Option.bind, hparse, hnext]
  rfl

/-- A mirror sends back what a command of the later steps holds. -/
theorem mirrorAnswer_wrap {chain : Bool} (z : Block) (tag : UInt8) {value : Bytes}
    (htag : tag.toNat % 32 ≠ 31) (h : value.length ≤ 97) :
    mirrorAnswer z (wrapGeneralAuthenticate chain (dynamicAuth tag value)) =
      dynamicAuth (tag + 1) value := by
  have hreflected : reflected (wrapGeneralAuthenticate chain (dynamicAuth tag value)) = _ :=
    reflected_wrap tag htag h
  -- the first two commands hold no object in an envelope
  have hset : wrapGeneralAuthenticate chain (dynamicAuth tag value) ≠
      setAtCommand passwordRefCan := by
    intro heq
    have hnone : reflected (setAtCommand passwordRefCan) = none := by decide
    rw [heq, hnone] at hreflected
    exact absurd hreflected (by simp)
  have hnonce : wrapGeneralAuthenticate chain (dynamicAuth tag value) ≠ nonceCommand := by
    intro heq
    have hnone : reflected nonceCommand = none := by decide
    rw [heq, hnone] at hreflected
    exact absurd hreflected (by simp)
  rw [mirrorAnswer, if_neg hset, if_neg hnonce, hreflected]
  rfl

/-- The nonce that a driver makes of the mirror's. -/
def mirroredNonce (crypto : Crypto) (can : Can) (z : Block) : Bytes :=
  crypto.cbcDecrypt (kdfAes256 crypto can.bytes .password) zeroIv z.bytes

theorem decryptedNonce_mirrored (crypto : Crypto) (can : Can) (z : Block) :
    (decryptedNonce crypto can (dynamicAuth 0x80 z.bytes) : Except (PaceError E) Bytes) =
      .ok (mirroredNonce crypto can z) := by
  have hblock : z.bytes.length % 16 = 0 := by rw [z.length_bytes]
  have hobject : (dynamicAuthObject 0x80 (dynamicAuth 0x80 z.bytes) :
      Except (PaceError E) Bytes) = _ :=
    dynamicAuthObject_dynamicAuth 0x80 _ 0x80 rfl (by decide) (by rw [z.length_bytes]; decide)
  have hplain : aes256CbcDecryptNoPadding crypto.toAes
      (kdfAes256 crypto can.bytes .password) zeroIv z.bytes =
        some (mirroredNonce crypto can z) := if_pos hblock
  have hlength : (mirroredNonce crypto can z).length = nonceLen := by
    rw [mirroredNonce, crypto.length_cbcDecrypt _ _ _ hblock, z.length_bytes]
    rfl
  simp only [decryptedNonce, bind_eq_ok, ensure_eq_ok, okOr_eq_ok, pure_eq_ok, decide_eq_true_eq]
  exact ⟨_, hobject, (), z.length_bytes, _, hplain, (), hlength, rfl⟩

/-- **One exchange with a mirror**: it leads the driver on. -/
theorem Mapped.mirrored {p : Phase} {apdu : Bytes} {z : Block} {can : Can}
    (hp : Mapped (mirroredNonce crypto can z) id id h p) (hcommand : p.command crypto = some apdu) :
    ∃ p', p.answered crypto E can (mirrorAnswer z apdu) = some p' ∧
      Mapped (mirroredNonce crypto can z) id id h p' := by
  cases hp with
  | start hdrawn =>
    obtain rfl := Option.some.inj hcommand
    exact ⟨.selected, rfl, .selected hdrawn⟩
  | selected hdrawn =>
    obtain rfl := Option.some.inj hcommand
    have hanswer : mirrorAnswer z nonceCommand = dynamicAuth 0x80 z.bytes := by
      rw [mirrorAnswer, if_neg (by decide), if_pos rfl]
    refine ⟨.challenged (mirroredNonce crypto can z), ?_, .challenged hdrawn⟩
    simp only [Phase.answered, hanswer, decryptedNonce_mirrored]
    rfl
  | @mapping x hx hdrawn =>
    obtain ⟨octets, hoctets, rfl⟩ := Option.map_eq_some_iff.mp hcommand
    have hlength := length_encodeUncompressed hoctets
    have hX := multiple_generator.scalarMul x
    refine ⟨_, ?_, .mapped hx hdrawn⟩
    rw [Phase.answered, mapCommand, mirrorAnswer_wrap z 0x81 (by decide) hlength.le,
      answeredPoint_dynamicAuth (0x81 + 1) 0x82 rfl (by decide) hlength
        (decode_of_encode hX.valid hoctets)]
    rfl
  | @agreeing x u hx hdrawn hu =>
    obtain ⟨octets, hoctets, rfl⟩ := Option.map_eq_some_iff.mp hcommand
    have hlength := length_encodeUncompressed hoctets
    have hU := (multiple_mappedGenerator (mirroredNonce crypto can z) x x).scalarMul u
    refine ⟨_, ?_, .agreed rfl hx hdrawn hu⟩
    rw [Phase.answered, agreeCommand, mirrorAnswer_wrap z 0x83 (by decide) hlength.le,
      answeredPoint_dynamicAuth (0x83 + 1) 0x84 rfl (by decide) hlength
        (decode_of_encode hU.valid hoctets)]
    rfl
  | @agreed x u g hgen hx hdrawn hu =>
    rw [command_agreed] at hcommand
    obtain ⟨keys, hkeys, rfl⟩ := Option.map_eq_some_iff.mp hcommand
    obtain ⟨kX, kY, token, hcoords, htoken, rfl⟩ := derived_eq_some.mp hkeys
    -- the token over the card's point is the one over ours: they are the same point
    have hanswer : mirrorAnswer z
        (tokenCommand (aes256CmacTruncated crypto.toAes (sessionOf crypto kX).kMac token)) =
          dynamicAuth 0x86 (aes256CmacTruncated crypto.toAes (sessionOf crypto kX).kMac token) := by
      have hlength := length_cmacTruncated crypto.toAes (sessionOf crypto kX).kMac token
      exact mirrorAnswer_wrap z 0x85 (by decide) (by omega)
    have hours : encodeAuthToken (g.scalarMul u) = some token := htoken
    refine ⟨.done (sessionOf crypto kX), ?_, .done⟩
    rw [answered_agreed, hkeys, Option.bind_some, hanswer, finishedSession_token hours]
    rfl
  | _ => exact absurd hcommand (by simp [Phase.command])

/-- A mirror keeps up. -/
theorem mirror_partner (crypto : Crypto) (can : Can) (z : Block)
    (fill : List (Event E) → Option U384) :
    Partner crypto can (mirrorWorld z fill) fun p h =>
      Mapped (mirroredNonce crypto can z) id id h p where
  start := .start rfl
  drew := fun hp hdrawn => hp.drew hdrawn
  answer := by
    intro p h apdu hp hcommand
    obtain ⟨p', hanswered, hp'⟩ := hp.mirrored hcommand
    exact ⟨⟨mirrorAnswer z apdu, 0x90, 0x00⟩, p', rfl, isOk_success _, hanswered, hp'.sent⟩

/-- **A mirror is accepted.**  The driver never compares the card's points with its own, so one
    that knows no access number and sends back what it gets ends every handshake with a session,
    unless the driver's draws stop it: the token that the driver expects is the one it sent.  They
    stop it as in `handshake_agrees`, with the first scalar in place of the card's. -/
theorem mirror_accepted (crypto : Crypto) (can : Can) (z : Block)
    (fill : List (Event E) → Option U384) (turns : Nat) :
    let run := runPaceWithCan crypto (mirrorWorld z fill) turns can []
    (∃ session, run.1 = .ok session) ∨ run.1 = .error .drawing ∨
      run.1 = .error (.failed .random) ∨ (run.1 = .error (.failed .invalidPoint) ∧
        ∃ x, (scalars run.2).head? = some x ∧ inRange x = true ∧
          n.toNat ∣ (scalarFromNonce (mirroredNonce crypto can z)).toNat + x.toNat * x.toNat) := by
  intro run
  obtain ⟨-, herror⟩ := run_of_partner (mirror_partner crypto can z fill) turns
  cases hrun : run.1 with
  | ok session => exact .inl ⟨session, rfl⟩
  | error e =>
    obtain rfl | rfl | ⟨rfl, p, hp, hstuck⟩ := herror e hrun
    · exact .inr (.inl rfl)
    · exact .inr (.inr (.inl rfl))
    · exact .inr (.inr (.inr ⟨rfl, hp.stuck (fun _ hu => hu) hstuck⟩))

/-- The driver against a mirror. -/
def mirroredRun : Except (Stop Unit) PaceSession × List (Event Unit) :=
  runPaceWithCan sampleCrypto (mirrorWorld sampleNonce sampleFill) 2 sampleCan []

theorem sampleMirror_accepted : ∃ session, mirroredRun.1 = .ok session := by
  -- the draws do not stop it
  have hdraws : mirroredRun.1.isOk = true := by decide +kernel
  obtain hsession | hdrawing | hrandom | ⟨hinfinity, -⟩ :=
    mirror_accepted sampleCrypto sampleCan sampleNonce sampleFill 2
  · exact hsession
  · rw [mirroredRun, hdrawing] at hdraws
    cases hdraws
  · rw [mirroredRun, hrandom] at hdraws
    cases hdraws
  · rw [mirroredRun, hinfinity] at hdraws
    cases hdraws

end

end Pace

end RefineId
