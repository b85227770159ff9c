/-
  RefineId.CardPinSafety — what the PIN flows never do to a card.
  ════════════════════════════════════════════════════════════════════════════

  Against every card behaviour, and in every run of the three flows of `CardPin`: a
  command that presents a credential comes after a probe of that same credential whose
  answer allows it, and, once anything has been presented, after a fresh look at the
  card's serial; each slot presents once; PIN2 is not touched after a PIN1 step that
  failed; and a refused run presents nothing.

  Two things stand in the way.  The flows resolve the reference numbering twice, once
  when the session is bound and once with the card's lengths; `change_pin_first` and
  `unblock_pin_first` probe under the first and send under the second.  And
  `activate_first` may find PIN2's counter below its floor after it has set PIN1, and
  then ends with the error that says nothing was sent.  Without these two the runs are
  safe.

  Main results:
    • `changePin_spec`, `resetRetryCounter_spec` : the two presenting steps.
    • `activateFirst_spec`                       : every step of an activation is safe.
    • `pinFlows_safe`                            : all three flows.
-/
import RefineId.CardPin

namespace RefineId

namespace CardPin

open Lib

/-! ## §1. Credential-bearing commands -/

/-- The credential a command presents for the card to compare.  RESET RETRY COUNTER with
    PUK and new PIN presents the PUK of its numbering; with the new PIN alone it presents
    nothing. -/
def presents : Event → Option CredentialReference
  | .apdu _ (.verify reference _) _ => some reference
  | .apdu _ (.changeReferenceData reference _) _ => some reference
  | .apdu _ (.resetRetryCounter (.pin scheme _) .codeThenNew _) _ => some (.puk scheme)
  | .apdu _ (.resetRetryCounter (.puk scheme) .codeThenNew _) _ => some (.puk scheme)
  | _ => none

/-- The event presents some credential. -/
def Presenting (e : Event) : Prop := (presents e).isSome = true

instance (e : Event) : Decidable (Presenting e) := inferInstanceAs (Decidable (_ = true))

/-- The slot whose step sent the command. -/
def eventSlot : Event → Option PinSlot
  | .apdu slot _ _ => slot
  | _ => none

/-- The command changes something on the card. -/
def modifies : Event → Bool
  | .apdu _ (.verify _ _) _ => true
  | .apdu _ (.changeReferenceData _ _) _ => true
  | .apdu _ (.resetRetryCounter _ _ _) _ => true
  | _ => false

/-- The card answered 9000. -/
def succeeded : Event → Bool
  | .apdu _ _ (.ok r) => r.sw = .success
  | _ => false

/-- The rules of `pin_retry_risk.rs` for PINs. -/
inductive PinRule where
  /-- `check_retry_floor`, when a PIN is changed. -/
  | retryFloor
  /-- `check_activation_last_tries`, when it is activated. -/
  | activationLastTries
  deriving Repr, DecidableEq

/-- The rule allows presenting `reference` at this counter; a PUK has one rule. -/
def PinRule.allows (rule : PinRule) (reference : CredentialReference) (status : PinStatus) : Bool :=
  match reference, rule with
  | .pin _ slot, .retryFloor => (checkRetryFloor (.ofSlot slot) status).isOk
  | .pin _ slot, .activationLastTries => (checkActivationLastTries (.ofSlot slot) status).isOk
  | .puk _, _ => (checkRetryFloor .puk status).isOk

/-- The counter was read, and it is not at its last one or two tries. -/
def spare : PinStatus → Bool
  | .verified => true
  | .remaining retries => retries = 0 || 3 ≤ retries && retries ≤ 5
  | .locked => true
  | .noInfo => false
  | .other _ => false

/-- The PUK's status as `check_puk_retry_floor` passes it on. -/
def PukStatus.asPin : PukStatus → PinStatus
  | .remaining retries => .remaining retries
  | .noInfo => .noInfo
  | .locked => .locked
  | .invalidated => .locked
  | .other sw => .other sw

/-- The credential whose retry counter the event reads, and what the card reports. -/
def counterOf : Event → Option (CredentialReference × PinStatus)
  | .apdu _ (.verifyProbe (.pin scheme slot)) (.ok r) =>
    some (.pin scheme slot, classifyPinStatusSw r.sw)
  | .apdu _ (.verifyProbe (.puk scheme)) (.ok r) =>
    some (.puk scheme, (classifyPukStatusSw r.sw).asPin)
  | .apdu _ .getPukInfo (.ok r) => some (.puk .citizen, (citizenPukStatus r).asPin)
  | _ => none

/-- The event is a counter probe of `reference` whose answer allows presenting it. -/
def Permits (rule : PinRule) (reference : CredentialReference) (e : Event) : Prop :=
  ∃ status, counterOf e = some (reference, status) ∧ rule.allows reference status = true ∧
    spare status = true

/-- The event is a counter probe whose answer forbids presenting. -/
def declines (rule : PinRule) (e : Event) : Bool :=
  match counterOf e with
  | some (reference, status) => !rule.allows reference status
  | none => false

/-- The event is a read of the bound serial. -/
def readsSerial (boundSerial : String) (e : Event) : Prop := e = .tokenInfo (some boundSerial)

/-- **One step of a safe session**: what has to lie behind a command that presents a
    credential. -/
structure SafeStep (rule : PinRule) (boundSerial : String) (e : Event) (h : List Event) : Prop where
  /-- A permitting probe of the same reference, and nothing presented since. -/
  probed : ∀ reference, presents e = some reference →
    Since (Permits rule reference) Presenting h
  /-- After an earlier presentation, the bound serial read again, and nothing presented
      since. -/
  bound : Presenting e → (∃ x ∈ h, Presenting x) → Since (readsSerial boundSerial) Presenting h
  /-- The first presentation of its slot's step. -/
  once : Presenting e → (eventSlot e).isSome ∧
    ∀ x ∈ h, Presenting x → eventSlot x ≠ eventSlot e
  /-- PIN2 only after a PIN1 step that succeeded throughout. -/
  order : Presenting e → eventSlot e = some .pin2 →
    ∀ x ∈ h, modifies x = true → eventSlot x = some .pin1 → succeeded x = true

/-- Nothing has been presented. -/
def Calm (h : List Event) : Prop := ∀ x ∈ h, ¬ Presenting x

/-- A refusal by the program's own rules. -/
def refusedLocally : CardPinError → Bool
  | .pinPolicy _ => true
  | .activationLengthMismatch _ _ => true
  | .activationEntriesMismatch _ _ => true
  | .cardLooksUnactivated _ _ => true
  | .retryFloor _ => true
  | _ => false

/-! ## §2. Flows that change nothing -/

/-- No event of the stretch changes anything on the card. -/
def Idle (t : List Event) : Prop := ∀ x ∈ t, modifies x = false

/-- The flow only adds events, and none that changes the card. -/
def Quiet {α : Type} (m : Session α) : Prop :=
  ∀ h, ∃ t, (m h).2 = t ++ h ∧ Idle t

theorem quiet_pure {α : Type} (a : α) : Quiet (pure a : Session α) :=
  fun h => ⟨[], rfl, by simp [Idle]⟩

theorem quiet_lift {α : Type} (r : Except CardPinError α) : Quiet (Flow.lift r) :=
  fun h => ⟨[], rfl, by simp [Idle]⟩

theorem quiet_throw {α : Type} (e : CardPinError) : Quiet (Flow.throw e : Session α) :=
  fun h => ⟨[], rfl, by simp [Idle]⟩

theorem quiet_bind {α β : Type} {m : Session α} {f : α → Session β} (hm : Quiet m)
    (hf : ∀ a, Quiet (f a)) : Quiet (m >>= f) := by
  intro h
  obtain ⟨t, ht, hc⟩ := hm h
  show ∃ t, (Flow.bind m f h).2 = t ++ h ∧ Idle t
  unfold Flow.bind
  cases hr : m h with
  | mk r h' =>
    obtain rfl : h' = t ++ h := by rw [← ht, hr]
    cases r with
    | error e => exact ⟨t, rfl, hc⟩
    | ok a =>
      obtain ⟨t', ht', hc'⟩ := hf a (t ++ h)
      refine ⟨t' ++ t, by simpa using ht', ?_⟩
      intro x hx
      rcases List.mem_append.mp hx with hx | hx
      · exact hc' x hx
      · exact hc x hx

theorem quiet_attempt {α : Type} {m : Session α} (hm : Quiet m) : Quiet (Flow.attempt m) := by
  intro h
  obtain ⟨t, ht, hc⟩ := hm h
  refine ⟨t, ?_, hc⟩
  unfold Flow.attempt
  cases hr : m h with
  | mk r h' =>
    rw [hr] at ht
    cases r <;> exact ht

theorem idle_singleton {e : Event} (he : modifies e = false) : Idle [e] := by
  intro x hx
  rw [List.mem_singleton.mp hx]
  exact he

section
variable {R : Type} {L : LengthRanges R} {card : Card R}

theorem quiet_transmit {slot : Option PinSlot} {command : Apdu}
    (h : ∀ answer, modifies (.apdu slot command answer) = false) :
    Quiet (transmit card slot command) :=
  fun t => ⟨[.apdu slot command (card.transmit t command)], rfl, idle_singleton (h _)⟩

theorem quiet_select : Quiet (selectPkcs15Application card) :=
  fun _ => ⟨[.selectApplication], rfl, idle_singleton rfl⟩

theorem quiet_reVerify {boundSerial : String} : Quiet (reVerifySession card boundSerial) := by
  intro h
  unfold reVerifySession
  split
  · exact ⟨[.tokenInfo none], rfl, idle_singleton rfl⟩
  · exact ⟨[.tokenInfo none], rfl, idle_singleton rfl⟩
  next serial _ => exact ⟨[.tokenInfo (some serial)], rfl, idle_singleton rfl⟩

theorem quiet_probe {slot : Option PinSlot} {reference : CredentialReference} :
    Quiet (probeStatusWord card slot reference) :=
  quiet_bind (quiet_transmit fun _ => rfl) fun _ => quiet_pure _

theorem quiet_pinStatus {scheme : PinReferenceScheme} {slot : PinSlot} :
    Quiet (pinStatusWithScheme card scheme slot) :=
  quiet_bind quiet_probe fun _ => quiet_pure _

theorem quiet_pinChangedFlag {scheme : PinReferenceScheme} {slot : PinSlot} :
    Quiet (pinChangedFlagWithScheme card scheme slot) :=
  quiet_bind (quiet_transmit fun _ => rfl) fun _ => quiet_pure _

theorem quiet_resolve : Quiet (resolvePinReferenceScheme card) := by
  refine quiet_bind quiet_probe fun citizen => ?_
  split
  · exact quiet_pure _
  · exact quiet_bind quiet_probe fun _ => quiet_pure _

theorem quiet_listedRange {numbering : PinReferenceScheme} {objects : Option (List (UInt8 × R))}
    {credential : CredentialReference} :
    Quiet (listedRange L card numbering objects credential) := by
  unfold listedRange
  split
  · exact quiet_pure _
  · cases numbering with
    | citizen =>
      refine quiet_bind (quiet_transmit fun answer => ?_) fun _ => quiet_pure _
      cases credential <;> rfl
    | organizational => exact quiet_pure _

theorem quiet_readAuthenticationObjects : Quiet (readAuthenticationObjects card) :=
  fun _ => ⟨[.authenticationObjects], rfl, idle_singleton rfl⟩

theorem quiet_readCardPinLengths : Quiet (readCardPinLengths L card) :=
  quiet_bind quiet_resolve fun _ => quiet_bind quiet_readAuthenticationObjects fun _ =>
    quiet_bind quiet_listedRange fun _ => quiet_bind quiet_listedRange fun _ =>
      quiet_bind quiet_listedRange fun _ => quiet_pure _

theorem quiet_openSession {boundSerial : String} : Quiet (openSession card boundSerial) :=
  quiet_bind (quiet_lift _) fun _ => quiet_bind quiet_select fun _ => quiet_reVerify

theorem quiet_probePinActivation {numbering : PinReferenceScheme} {scheme : ActivationScheme}
    {slot : PinSlot} : Quiet (probePinActivation card numbering scheme slot) :=
  quiet_bind (quiet_attempt quiet_pinStatus) fun _ =>
    quiet_bind (quiet_attempt quiet_pinChangedFlag) fun _ => quiet_pure _

theorem quiet_requireActivated {ctx : CardContext} {slot : PinSlot} :
    Quiet (requireActivated card ctx slot) := by
  refine quiet_bind quiet_probePinActivation fun r => ?_
  obtain ⟨probe, verdict⟩ := r
  dsimp only
  split
  · exact quiet_pure _
  · exact quiet_throw _

/-! ## §3. What a quiet flow keeps -/

theorem presenting_of_modifies {e : Event} (h : Presenting e) : modifies e = true := by
  unfold Presenting presents at h
  split at h <;> first | rfl | exact absurd h (by simp)

theorem not_presenting_of_not_modifies {e : Event} (h : modifies e = false) : ¬ Presenting e := by
  intro hp
  rw [presenting_of_modifies hp] at h
  exact absurd h (by simp)

/-- A property of the history that idle stretches keep. -/
def Stable (P : List Event → Prop) : Prop := ∀ t h, Idle t → P h → P (t ++ h)

/-- One event at a time is enough. -/
theorem stable_of_cons {P : List Event → Prop}
    (hP : ∀ e h, modifies e = false → P h → P (e :: h)) : Stable P := by
  intro t h ht hh
  induction t with
  | nil => exact hh
  | cons e t ih =>
    refine hP e (t ++ h) (ht e (by simp)) (ih ?_)
    intro x hx
    exact ht x (List.mem_cons_of_mem _ hx)

theorem stable_and {P Q : List Event → Prop} (hP : Stable P) (hQ : Stable Q) :
    Stable fun h => P h ∧ Q h :=
  fun t h ht hh => ⟨hP t h ht hh.1, hQ t h ht hh.2⟩

/-- **A quiet flow keeps every stable property**, however it ends. -/
theorem Quiet.keeps {α : Type} {m : Session α} {P : List Event → Prop} (hm : Quiet m)
    (hP : Stable P) : Triple P m fun _ t => P t := by
  intro h hh
  obtain ⟨t, ht, hidle⟩ := hm h
  rw [ht]
  exact hP t h hidle hh

theorem stable_calm : Stable Calm := by
  refine stable_of_cons fun e h he hh => ?_
  intro x hx
  rcases List.mem_cons.mp hx with rfl | hx
  · exact not_presenting_of_not_modifies he
  · exact hh x hx

theorem stable_since {ok : Event → Prop} : Stable (Since ok Presenting) :=
  stable_of_cons fun _ _ he hh => .inr ⟨not_presenting_of_not_modifies he, hh⟩

theorem safeStep_of_quiet {rule : PinRule} {boundSerial : String} {e : Event} {h : List Event}
    (he : ¬ Presenting e) : SafeStep rule boundSerial e h := by
  refine ⟨?_, fun hp => absurd hp he, fun hp => absurd hp he, fun hp => absurd hp he⟩
  intro reference hp
  exact absurd (by simp [Presenting, hp]) he

theorem stable_always {rule : PinRule} {boundSerial : String} :
    Stable (Always (SafeStep rule boundSerial)) :=
  stable_of_cons fun _ _ he hh => ⟨safeStep_of_quiet (not_presenting_of_not_modifies he), hh⟩

/-! ## §4. Presenting a credential -/

/-- Every presentation so far belongs to one of `tags`. -/
def Tagged (tags : List PinSlot) (h : List Event) : Prop :=
  ∀ x ∈ h, Presenting x → ∃ s ∈ tags, eventSlot x = some s

/-- Every modifying command so far succeeded. -/
def AllOk (h : List Event) : Prop := ∀ x ∈ h, modifies x = true → succeeded x = true

/-- Before the step of `slot`: the steps of `tags` have run, with success. -/
structure Paused (rule : PinRule) (boundSerial : String) (slot : PinSlot) (tags : List PinSlot)
    (h : List Event) : Prop where
  safe : Always (SafeStep rule boundSerial) h
  tagged : Tagged tags h
  fresh : slot ∉ tags
  ok : AllOk h

/-- **The state in which a slot's step may begin**: the serial is known to be the bound one. -/
structure Entry (rule : PinRule) (boundSerial : String) (slot : PinSlot) (tags : List PinSlot)
    (h : List Event) : Prop extends Paused rule boundSerial slot tags h where
  bound : Calm h ∨ Since (readsSerial boundSerial) Presenting h

/-- Ready to present `reference` for `slot`. -/
structure Ready (rule : PinRule) (boundSerial : String) (slot : PinSlot) (tags : List PinSlot)
    (reference : CredentialReference) (h : List Event) : Prop where
  entry : Entry rule boundSerial slot tags h
  probed : Since (Permits rule reference) Presenting h

theorem stable_paused {rule : PinRule} {boundSerial : String} {slot : PinSlot}
    {tags : List PinSlot} : Stable (Paused rule boundSerial slot tags) := by
  intro t h ht hh
  refine ⟨stable_always t h ht hh.safe, ?_, hh.fresh, ?_⟩
  · intro x hx hp
    rcases List.mem_append.mp hx with hx | hx
    · exact absurd hp (not_presenting_of_not_modifies (ht x hx))
    · exact hh.tagged x hx hp
  · intro x hx hm
    rcases List.mem_append.mp hx with hx | hx
    · rw [ht x hx] at hm
      exact absurd hm (by simp)
    · exact hh.ok x hx hm

theorem stable_entry {rule : PinRule} {boundSerial : String} {slot : PinSlot}
    {tags : List PinSlot} : Stable (Entry rule boundSerial slot tags) := by
  intro t h ht hh
  refine ⟨stable_paused t h ht hh.toPaused, ?_⟩
  rcases hh.bound with hb | hb
  · exact .inl (stable_calm t h ht hb)
  · exact .inr (stable_since t h ht hb)

/-- **A presentation from a ready state is safe.** -/
theorem always_present {rule : PinRule} {boundSerial : String} {slot : PinSlot}
    {tags : List PinSlot} {reference : CredentialReference} {h : List Event} {e : Event}
    (hr : Ready rule boundSerial slot tags reference h) (he : presents e = some reference)
    (hs : eventSlot e = some slot) : Always (SafeStep rule boundSerial) (e :: h) := by
  have hother : ∀ x ∈ h, Presenting x → eventSlot x ≠ eventSlot e := by
    intro x hx hp heq
    obtain ⟨s, hmem, htag⟩ := hr.entry.tagged x hx hp
    rw [htag, hs] at heq
    injection heq with heq
    exact hr.entry.fresh (heq ▸ hmem)
  refine ⟨⟨?_, ?_, fun _ => ⟨by simp [hs], hother⟩, ?_⟩, hr.entry.safe⟩
  · intro reference' hp
    rw [he] at hp
    injection hp with hp
    exact hp ▸ hr.probed
  · rintro - ⟨x, hx, hp⟩
    rcases hr.entry.bound with hb | hb
    · exact absurd hp (hb x hx)
    · exact hb
  · rintro - - x hx hm -
    exact hr.entry.ok x hx hm

/-- The error is one of the program's own refusals. -/
def Refusal {α : Type} (r : Except CardPinError α) : Prop :=
  ∃ e, r = .error e ∧ refusedLocally e = true

/-- What a slot's step leaves behind. -/
structure After (rule : PinRule) (boundSerial : String) (slot : PinSlot) (tags : List PinSlot)
    (success refused : Prop) (h : List Event) : Prop where
  safe : Always (SafeStep rule boundSerial) h
  tagged : Tagged (slot :: tags) h
  ok : success → AllOk h
  refusal : refused → Tagged tags h

theorem after_of_entry {rule : PinRule} {boundSerial : String} {slot : PinSlot}
    {tags : List PinSlot} {success refused : Prop} {h : List Event}
    (hh : Entry rule boundSerial slot tags h) :
    After rule boundSerial slot tags success refused h := by
  refine ⟨hh.safe, ?_, fun _ => hh.ok, fun _ => hh.tagged⟩
  intro x hx hp
  obtain ⟨s, hmem, htag⟩ := hh.tagged x hx hp
  exact ⟨s, List.mem_cons_of_mem _ hmem, htag⟩

theorem tagged_present {slot : PinSlot} {tags : List PinSlot} {h : List Event} {e : Event}
    (ht : Tagged tags h) (hs : eventSlot e = some slot) : Tagged (slot :: tags) (e :: h) := by
  intro x hx hp
  rcases List.mem_cons.mp hx with rfl | hx
  · exact ⟨slot, by simp, hs⟩
  · obtain ⟨s, hmem, htag⟩ := ht x hx hp
    exact ⟨s, List.mem_cons_of_mem _ hmem, htag⟩

theorem allOk_cons {h : List Event} {e : Event} (hh : AllOk h) (he : succeeded e = true) :
    AllOk (e :: h) := by
  intro x hx hm
  rcases List.mem_cons.mp hx with rfl | hx
  · exact he
  · exact hh x hx hm

theorem classifyChangePinSw_ok {sw : StatusWord} (h : classifyChangePinSw sw = .ok) :
    sw = .success := by
  cases sw <;> simp [classifyChangePinSw] at h ⊢

theorem classifyResetRetrySw_ok {sw : StatusWord} (h : classifyResetRetrySw sw = .ok) :
    sw = .success := by
  cases sw <;> simp [classifyResetRetrySw] at h ⊢

/-! ## §5. The two presenting steps -/

/-- A command that presents, sent from a ready state. -/
theorem after_present {rule : PinRule} {boundSerial : String} {slot : PinSlot}
    {tags : List PinSlot} {reference : CredentialReference} {success refused : Prop}
    {h : List Event} {e : Event} (hr : Ready rule boundSerial slot tags reference h)
    (he : presents e = some reference) (hs : eventSlot e = some slot)
    (hok : success → succeeded e = true) (href : ¬ refused) :
    After rule boundSerial slot tags success refused (e :: h) := by
  refine ⟨always_present hr he hs, tagged_present hr.entry.tagged hs, ?_, fun h => absurd h href⟩
  intro hsucc
  exact allOk_cons hr.entry.ok (hok hsucc)

/-- A length check leaves the state as it is. -/
theorem lift_spec {α : Type} {P : List Event → Prop}
    {post : Except CardPinError α → List Event → Prop} {r : Except CardPinError α}
    (hok : ∀ a t, r = .ok a → P t → post (.ok a) t)
    (herr : ∀ e t, r = .error e → P t → post (.error e) t) : Triple P (Flow.lift r) post := by
  refine Triple.lift fun t ht => ?_
  cases hr : r with
  | ok a => exact hok a t hr ht
  | error e => exact herr e t hr ht

@[simp] theorem refusal_error {α : Type} {e : CardPinError} :
    Refusal (.error e : Except CardPinError α) ↔ refusedLocally e = true := by
  constructor
  · intro ⟨e', he, hl⟩
    injection he with he
    rw [he]
    exact hl
  · intro hl
    exact ⟨e, rfl, hl⟩

theorem not_refusal_ok {α : Type} {a : α} : ¬ Refusal (.ok a : Except CardPinError α) := by
  intro ⟨e, he, _⟩
  exact absurd he (by simp)

theorem not_refusal_transport {α : Type} {detail : String} :
    ¬ Refusal (.error (.transport detail) : Except CardPinError α) := by
  simp [refusedLocally]

/-- **`transmit`**: one event, with whatever the card answers. -/
theorem transmit_spec {pre : List Event → Prop} {slot : Option PinSlot} {command : Apdu}
    {post : Except CardPinError Response → List Event → Prop}
    (hok : ∀ h r, pre h → post (.ok r) (.apdu slot command (.ok r) :: h))
    (herr : ∀ h e, pre h → post (.error (.transport e)) (.apdu slot command (.error e) :: h)) :
    Triple pre (transmit card slot command) post := by
  intro h hpre
  unfold transmit
  cases ha : card.transmit h command with
  | ok r => exact hok h r hpre
  | error e => exact herr h e hpre

/-- A presenting command from a ready state, and its answer. -/
theorem transmit_present {α : Type} {rule : PinRule} {boundSerial : String} {slot : PinSlot}
    {tags : List PinSlot} {reference : CredentialReference} {success : Except CardPinError α → Prop}
    {command : Apdu} {k : Response → Session α}
    (hp : ∀ answer, presents (.apdu (some slot) command answer) = some reference)
    (herr : ∀ e, ¬ success (.error e))
    (hk : ∀ r, Triple (fun t => ∃ h, Ready rule boundSerial slot tags reference h ∧
        t = .apdu (some slot) command (.ok r) :: h) (k r)
      fun r t => After rule boundSerial slot tags (success r) (Refusal r) t) :
    Triple (Ready rule boundSerial slot tags reference)
      (transmit card (some slot) command >>= k)
      fun r t => After rule boundSerial slot tags (success r) (Refusal r) t := by
  refine Triple.bind (fun r t => ∃ h, Ready rule boundSerial slot tags reference h ∧
    t = .apdu (some slot) command (.ok r) :: h) (transmit_spec ?_ ?_) hk
  · intro h r hr
    exact ⟨h, hr, rfl⟩
  · intro h e hr
    exact after_present hr (hp _) rfl (fun hs => absurd hs (herr _)) not_refusal_transport

/-- **`change_pin` from a ready state**: one presentation, of the PIN of its own numbering. -/
theorem changePin_spec {rule : PinRule} {boundSerial : String} {slot : PinSlot}
    {tags : List PinSlot} {lengths : CardPinLengths R} {currentPin newPin : PinBytes} :
    Triple (Ready rule boundSerial slot tags (.pin lengths.numbering slot))
      (changePin L card lengths slot currentPin newPin)
      fun r t => After rule boundSerial slot tags (r = .ok .ok) (Refusal r) t := by
  unfold changePin
  refine Triple.bind (fun _ => Ready rule boundSerial slot tags (.pin lengths.numbering slot))
    (lift_spec (fun _ _ _ ht => ht) fun e t _ ht => after_of_entry ht.entry) fun _ => ?_
  refine Triple.bind (fun _ => Ready rule boundSerial slot tags (.pin lengths.numbering slot))
    (lift_spec (fun _ _ _ ht => ht) fun e t _ ht => after_of_entry ht.entry) fun _ => ?_
  refine transmit_present (fun _ => rfl) (fun e => by simp) fun r => Triple.pure ?_
  intro t ⟨h, hr, ht⟩
  rw [ht]
  refine after_present hr rfl rfl ?_ not_refusal_ok
  intro hs
  injection hs with hs
  simp [succeeded, classifyChangePinSw_ok hs]

/-- A command that changes the card and presents nothing, after a step's presentation. -/
theorem after_modify {rule : PinRule} {boundSerial : String} {slot : PinSlot}
    {tags : List PinSlot} {success refused : Prop} {h : List Event} {e : Event}
    (ha : After rule boundSerial slot tags True False h) (he : presents e = none)
    (hok : success → succeeded e = true) (href : ¬ refused) :
    After rule boundSerial slot tags success refused (e :: h) := by
  have hquiet : ¬ Presenting e := by simp [Presenting, he]
  refine ⟨⟨safeStep_of_quiet hquiet, ha.safe⟩, ?_, ?_, fun h => absurd h href⟩
  · intro x hx hp
    rcases List.mem_cons.mp hx with rfl | hx
    · exact absurd hp hquiet
    · exact ha.tagged x hx hp
  · intro hs
    exact allOk_cons (ha.ok trivial) (hok hs)

theorem sendReset_newOnly_spec {rule : PinRule} {boundSerial : String} {scheme : PinReferenceScheme}
    {slot : PinSlot} {tags : List PinSlot} {block : Bytes} :
    Triple (After rule boundSerial slot tags True False)
      (sendReset card scheme slot .newOnly block)
      fun r t => After rule boundSerial slot tags (r = .ok .ok) (Refusal r) t := by
  unfold sendReset
  refine Triple.bind (fun r t => ∃ h, After rule boundSerial slot tags True False h ∧
    t = .apdu (some slot) (.resetRetryCounter (.pin scheme slot) .newOnly block) (.ok r) :: h)
    (transmit_spec ?_ ?_) fun r => Triple.pure ?_
  · intro h r ha
    exact ⟨h, ha, rfl⟩
  · intro h e ha
    exact after_modify ha rfl (fun hs => absurd hs (by simp)) not_refusal_transport
  · intro t ⟨h, ha, ht⟩
    rw [ht]
    refine after_modify ha rfl ?_ not_refusal_ok
    intro hs
    injection hs with hs
    simp [succeeded, classifyResetRetrySw_ok hs]

/-- **`reset_retry_counter` from a ready state**: one presentation, of the PUK of its own
    numbering; on an organizational card the reset that follows carries the new PIN alone. -/
theorem resetRetryCounter_spec {rule : PinRule} {boundSerial : String} {slot : PinSlot}
    {tags : List PinSlot} {lengths : CardPinLengths R} {puk newPin : PinBytes} :
    Triple (Ready rule boundSerial slot tags (.puk lengths.numbering))
      (resetRetryCounter L card lengths slot puk newPin)
      fun r t => After rule boundSerial slot tags (r = .ok .ok) (Refusal r) t := by
  unfold resetRetryCounter
  refine Triple.bind (fun _ => Ready rule boundSerial slot tags (.puk lengths.numbering))
    (lift_spec (fun _ _ _ ht => ht) fun e t _ ht => after_of_entry ht.entry) fun _ => ?_
  refine Triple.bind (fun _ => Ready rule boundSerial slot tags (.puk lengths.numbering))
    (lift_spec (fun _ _ _ ht => ht) fun e t _ ht => after_of_entry ht.entry) fun _ => ?_
  cases lengths.numbering with
  | citizen =>
    refine transmit_present (fun _ => rfl) (fun e => by simp) fun r => Triple.pure ?_
    intro t ⟨h, hr, ht⟩
    rw [ht]
    refine after_present hr rfl rfl ?_ not_refusal_ok
    intro hs
    injection hs with hs
    simp [succeeded, classifyResetRetrySw_ok hs]
  | organizational =>
    refine transmit_present (fun _ => rfl) (fun e => by simp) fun r => ?_
    dsimp only
    split
    next hne =>
      refine Triple.pure ?_
      intro t ⟨h, hr, ht⟩
      rw [ht]
      refine after_present hr rfl rfl ?_ not_refusal_ok
      intro hs
      injection hs with hs
      exact absurd hs hne
    next hok =>
      have hsw : r.sw = .success := classifyResetRetrySw_ok (by simpa using hok)
      refine Triple.weaken sendReset_newOnly_spec ?_ fun _ _ h => h
      intro t ⟨h, hr, ht⟩
      rw [ht]
      exact after_present hr rfl rfl (fun _ => by simp [succeeded, hsw]) not_false

/-! ## §6. Probes and the serial -/

theorem checkRetryFloor_spare {credential : FlooredCredential} {status : PinStatus}
    (h : (checkRetryFloor credential status).isOk = true) : spare status = true := by
  unfold checkRetryFloor at h
  cases status with
  | remaining retries =>
    match retries with
    | 0 | 3 | 4 | 5 => rfl
    | 1 | 2 => simp [PinRetryRisk.fromRetries, PinRetryRisk.isAboveFloor, Except.isOk,
        Except.toBool] at h
    | n + 6 => simp [PinRetryRisk.fromRetries, Except.isOk, Except.toBool] at h
  | verified => rfl
  | locked => rfl
  | noInfo => exact absurd h (by simp [Except.isOk, Except.toBool])
  | other sw => exact absurd h (by simp [Except.isOk, Except.toBool])

theorem checkActivationLastTries_spare {credential : FlooredCredential} {status : PinStatus}
    (h : (checkActivationLastTries credential status).isOk = true) : spare status = true := by
  unfold checkActivationLastTries at h
  cases status with
  | remaining retries =>
    match retries with
    | 0 | 3 | 4 | 5 => rfl
    | 1 | 2 => simp [PinRetryRisk.fromRetries, PinRetryRisk.spendsALastTry, Except.isOk,
        Except.toBool] at h
    | n + 6 => simp [PinRetryRisk.fromRetries, Except.isOk, Except.toBool] at h
  | verified => rfl
  | locked => rfl
  | noInfo => exact absurd h (by simp [Except.isOk, Except.toBool])
  | other sw => exact absurd h (by simp [Except.isOk, Except.toBool])

/-- **No rule spends a last try**: what any of them allows is a counter that was read and
    has none of its last two tries at stake. -/
theorem allows_spare {rule : PinRule} {reference : CredentialReference} {status : PinStatus}
    (h : rule.allows reference status = true) : spare status = true := by
  unfold PinRule.allows at h
  cases reference with
  | pin scheme slot =>
    cases rule with
    | retryFloor => exact checkRetryFloor_spare h
    | activationLastTries => exact checkActivationLastTries_spare h
  | puk scheme => exact checkRetryFloor_spare h

theorem permits_of_allows {rule : PinRule} {reference : CredentialReference} {status : PinStatus}
    {e : Event} (he : counterOf e = some (reference, status))
    (h : rule.allows reference status = true) : Permits rule reference e :=
  ⟨status, he, h, allows_spare h⟩

theorem declines_of_not_allows {rule : PinRule} {reference : CredentialReference}
    {status : PinStatus} {e : Event} (he : counterOf e = some (reference, status))
    (h : rule.allows reference status = false) : declines rule e = true := by
  simp [declines, he, h]

/-- The newest event reads the counter of `reference`. -/
def Reads (P : List Event → Prop) (reference : CredentialReference) (status : PinStatus)
    (t : List Event) : Prop :=
  ∃ e h, t = e :: h ∧ modifies e = false ∧ counterOf e = some (reference, status) ∧ P h

theorem Reads.keeps {P : List Event → Prop} {reference : CredentialReference}
    {status : PinStatus} {t : List Event} (hP : Stable P) (h : Reads P reference status t) :
    P t := by
  obtain ⟨e, h, rfl, hm, -, hh⟩ := h
  exact hP [e] h (idle_singleton hm) hh

/-- **`pin_status_with_scheme`** reads the counter of the PIN it names. -/
theorem pinStatus_spec {P : List Event → Prop} (hP : Stable P) {scheme : PinReferenceScheme}
    {slot : PinSlot} :
    Triple P (pinStatusWithScheme card scheme slot) fun r t => match r with
      | .ok status => Reads P (.pin scheme slot) status t
      | .error e => P t ∧ refusedLocally e = false := by
  unfold pinStatusWithScheme probeStatusWord
  refine Triple.bind (fun sw t => Reads P (.pin scheme slot) (classifyPinStatusSw sw) t)
    (Triple.bind (fun r t => Reads P (.pin scheme slot) (classifyPinStatusSw r.sw) t)
      (transmit_spec ?_ ?_) fun r => Triple.pure fun t ht => ht) fun sw => Triple.pure fun t ht => ht
  · intro h r hh
    exact ⟨_, h, rfl, rfl, rfl, hh⟩
  · intro h e hh
    exact ⟨hP [_] h (idle_singleton rfl) hh, rfl⟩

/-- **`puk_status_with_scheme`** reads the counter of the PUK it names. -/
theorem pukStatus_spec {P : List Event → Prop} (hP : Stable P) {scheme : PinReferenceScheme}
    {slot : Option PinSlot} :
    Triple P (pukStatusWithScheme card slot scheme) fun r t => match r with
      | .ok status => Reads P (.puk scheme) status.asPin t
      | .error e => P t ∧ refusedLocally e = false := by
  cases scheme with
  | citizen =>
    refine Triple.bind (fun r t => Reads P (.puk .citizen) (citizenPukStatus r).asPin t)
      (transmit_spec ?_ ?_) fun r => Triple.pure fun t ht => ht
    · intro h r hh
      exact ⟨_, h, rfl, rfl, rfl, hh⟩
    · intro h e hh
      exact ⟨hP [_] h (idle_singleton rfl) hh, rfl⟩
  | organizational =>
    refine Triple.bind (fun sw t => Reads P (.puk .organizational) (classifyPukStatusSw sw).asPin t)
      (Triple.bind (fun r t => Reads P (.puk .organizational) (classifyPukStatusSw r.sw).asPin t)
        (transmit_spec ?_ ?_) fun r => Triple.pure fun t ht => ht)
      fun sw => Triple.pure fun t ht => ht
    · intro h r hh
      exact ⟨_, h, rfl, rfl, rfl, hh⟩
    · intro h e hh
      exact ⟨hP [_] h (idle_singleton rfl) hh, rfl⟩

/-- The newest event is a probe that forbids presenting. -/
def Declined (rule : PinRule) (t : List Event) : Prop :=
  ∃ e h, t = e :: h ∧ modifies e = false ∧ declines rule e = true

theorem checkPukRetryFloor_eq (status : PukStatus) :
    checkPukRetryFloor status = checkRetryFloor .puk status.asPin := by
  cases status <;> rfl

/-- **`puk_retry_floor`**: on success the PUK of that numbering may be presented. -/
theorem pukRetryFloor_spec {P : List Event → Prop} (hP : Stable P) (rule : PinRule)
    {scheme : PinReferenceScheme} {slot : PinSlot} :
    Triple P (pukRetryFloor card slot scheme) fun r t => P t ∧ match r with
      | .ok _ => Since (Permits rule (.puk scheme)) Presenting t
      | .error e => refusedLocally e = true → Declined rule t := by
  refine Triple.bind (fun status t => Reads P (.puk scheme) status.asPin t) ?_ fun status => ?_
  · refine Triple.weaken (pukStatus_spec hP) (fun _ h => h) fun r t h => ?_
    cases r with
    | ok status => exact h
    | error e => exact ⟨h.1, fun hl => absurd hl (by simp [h.2])⟩
  · refine Triple.lift fun t ht => ⟨ht.keeps hP, ?_⟩
    obtain ⟨e, h, rfl, hm, hc, hh⟩ := ht
    rw [checkPukRetryFloor_eq]
    cases hr : checkRetryFloor .puk status.asPin with
    | ok u => exact .inl (permits_of_allows hc (by simp [PinRule.allows, hr, Except.isOk,
        Except.toBool]))
    | error refusal =>
      intro _
      exact ⟨e, h, rfl, hm, declines_of_not_allows hc (by simp [PinRule.allows, hr, Except.isOk,
        Except.toBool])⟩

/-- **`re_verify_session`** lets a slot's step begin only at the bound serial. -/
theorem reVerify_spec {P : List Event → Prop} (hP : Stable P) {boundSerial : String} :
    Triple P (reVerifySession card boundSerial) fun r t => P t ∧ match r with
      | .ok _ => Since (readsSerial boundSerial) Presenting t
      | .error e => refusedLocally e = false := by
  intro h hh
  refine ⟨quiet_reVerify.keeps hP h hh, ?_⟩
  unfold reVerifySession
  cases htok : card.tokenInfo h with
  | error e => rfl
  | ok serial =>
    cases serial with
    | none => rfl
    | some serial =>
      by_cases hs : serial = boundSerial
      · simp only [hs, ne_eq, not_true, if_false]
        exact .inl rfl
      · simp only [ne_eq, hs, not_false_iff, if_true]
        rfl

/-! ## §7. Activation -/

/-- A `PinBytes` has digits only: the length is all that `validate_for_card` can refuse. -/
theorem validateForCard_pin (pin : PinBytes) (check : Nat → Except PinPolicyReason Unit) :
    validateForCard pin.bytes check = (check pin.digitCount).mapError .pinPolicy := by
  have hnone : (pin.bytes.findIdx? fun b => !isAsciiDigit b) = none := by
    rw [List.findIdx?_eq_none_iff]
    intro b hb
    simp [List.all_eq_true.mp pin.digits b hb]
  rw [validateForCard, hnone]
  rfl

theorem changePin_not_refused {lengths : CardPinLengths R} {slot : PinSlot}
    {currentPin newPin : PinBytes} (hc : lengths.checkPin L slot currentPin.digitCount = .ok ())
    (hn : lengths.checkPin L slot newPin.digitCount = .ok ()) :
    Triple (fun _ => True) (changePin L card lengths slot currentPin newPin)
      fun r _ => ¬ Refusal r := by
  unfold changePin
  rw [validateForCard_pin, validateForCard_pin, hc, hn]
  refine Triple.bind (fun _ _ => True) (Triple.lift fun _ _ => trivial) fun _ => ?_
  refine Triple.bind (fun _ _ => True) (Triple.lift fun _ _ => trivial) fun _ => ?_
  exact Triple.bind (fun _ _ => True)
    (transmit_spec (fun _ _ _ => trivial) fun _ _ _ => not_refusal_transport)
    fun _ => Triple.pure fun _ _ => not_refusal_ok

theorem sendReset_not_refused {scheme : PinReferenceScheme} {slot : PinSlot}
    {mode : ResetRetryCounterMode} {block : Bytes} :
    Triple (fun _ => True) (sendReset card scheme slot mode block) fun r _ => ¬ Refusal r :=
  Triple.bind (fun _ _ => True)
    (transmit_spec (fun _ _ _ => trivial) fun _ _ _ => not_refusal_transport)
    fun _ => Triple.pure fun _ _ => not_refusal_ok

theorem resetRetryCounter_not_refused {lengths : CardPinLengths R} {slot : PinSlot}
    {puk newPin : PinBytes} (hc : lengths.checkPuk L puk.digitCount = .ok ())
    (hn : lengths.checkPin L slot newPin.digitCount = .ok ()) :
    Triple (fun _ => True) (resetRetryCounter L card lengths slot puk newPin)
      fun r _ => ¬ Refusal r := by
  unfold resetRetryCounter
  rw [validateForCard_pin, validateForCard_pin, hc, hn]
  refine Triple.bind (fun _ _ => True) (Triple.lift fun _ _ => trivial) fun _ => ?_
  refine Triple.bind (fun _ _ => True) (Triple.lift fun _ _ => trivial) fun _ => ?_
  cases lengths.numbering with
  | citizen => exact sendReset_not_refused
  | organizational =>
    refine Triple.bind (fun _ _ => True)
      (transmit_spec (fun _ _ _ => trivial) fun _ _ _ => not_refusal_transport) fun r => ?_
    dsimp only
    split
    · exact Triple.pure fun _ _ => not_refusal_ok
    · exact sendReset_not_refused

/-- The code and the new PIN of a checked entry have lengths the card takes. -/
theorem checkActivationEntry_some {lengths : CardPinLengths R} {code : ActivationCode}
    {slot : PinSlot} {pin : PinBytes}
    (h : checkActivationEntry L lengths code slot (some pin) = .ok ()) :
    (match code with
      | .seven _ _ => lengths.checkPin L slot code.toPinBytes.digitCount
      | .eight _ _ => lengths.checkPuk L code.toPinBytes.digitCount) = .ok () ∧
    lengths.checkPin L slot pin.digitCount = .ok () := by
  unfold checkActivationEntry at h
  cases code with
  | seven code hcode =>
    cases hc : lengths.checkPin L slot code.digitCount with
    | error e => simp [ActivationCode.toPinBytes, hc, bind, Except.bind] at h
    | ok u => exact ⟨hc, by simpa [ActivationCode.toPinBytes, hc, bind, Except.bind] using h⟩
  | eight code hcode =>
    cases hc : lengths.checkPuk L code.digitCount with
    | error e => simp [ActivationCode.toPinBytes, hc, bind, Except.bind] at h
    | ok u => exact ⟨hc, by simpa [ActivationCode.toPinBytes, hc, bind, Except.bind] using h⟩

/-- What a slot's activation leaves behind. -/
def ActivatedSlot (boundSerial : String) (slot : PinSlot) (tags : List PinSlot)
    (r : Except CardPinError UnblockOutcome) (t : List Event) : Prop :=
  After .activationLastTries boundSerial slot tags (r = .ok .ok) False t ∧
    (Refusal r → Declined .activationLastTries t)

theorem activatedSlot_of_entry {boundSerial : String} {slot : PinSlot} {tags : List PinSlot}
    {r : Except CardPinError UnblockOutcome} {t : List Event}
    (he : Entry .activationLastTries boundSerial slot tags t)
    (hr : Refusal r → Declined .activationLastTries t) :
    ActivatedSlot boundSerial slot tags r t :=
  ⟨after_of_entry he, hr⟩

/-- A presenting step whose entries were checked before does not refuse any more. -/
theorem activatedSlot_of_after {boundSerial : String} {slot : PinSlot} {tags : List PinSlot}
    {r : Except CardPinError UnblockOutcome} {t : List Event} {success refused : Prop}
    (ha : After .activationLastTries boundSerial slot tags success refused t)
    (hs : r = .ok .ok → success) (hn : ¬ Refusal r) : ActivatedSlot boundSerial slot tags r t :=
  ⟨⟨ha.safe, ha.tagged, fun h => ha.ok (hs h), fun h => h.elim⟩, fun h => absurd h hn⟩

/-- The preset activation PIN: `CHANGE REFERENCE DATA` behind the slot's own counter. -/
theorem activateSlotSetup_seven {boundSerial : String} {slot : PinSlot} {tags : List PinSlot}
    {lengths : CardPinLengths R} {pin newPin : PinBytes} {h7 : pin.digitCount = 7}
    (hcode : lengths.checkPin L slot pin.digitCount = .ok ())
    (hnew : lengths.checkPin L slot newPin.digitCount = .ok ()) :
    Triple (Entry .activationLastTries boundSerial slot tags)
      (activateSlotSetup L card lengths slot (.seven pin h7) newPin)
      (ActivatedSlot boundSerial slot tags) := by
  refine Triple.bind (fun status => Reads (Entry .activationLastTries boundSerial slot tags)
    (.pin lengths.numbering slot) status) ?_ fun status => ?_
  · refine Triple.weaken (pinStatus_spec stable_entry) (fun _ h => h) fun r t h => ?_
    cases r with
    | ok status => exact h
    | error e => exact activatedSlot_of_entry h.1 (by simp [h.2])
  refine Triple.bind (fun _ => Ready .activationLastTries boundSerial slot tags
    (.pin lengths.numbering slot)) ?_ fun _ => ?_
  · refine Triple.lift fun t ht => ?_
    have hentry := ht.keeps stable_entry
    obtain ⟨e, h, rfl, hm, hc, hh⟩ := ht
    cases hr : checkActivationLastTries (.ofSlot slot) status with
    | ok u =>
      exact ⟨hentry, .inl (permits_of_allows hc (by simp [PinRule.allows, hr, Except.isOk,
        Except.toBool]))⟩
    | error refusal =>
      refine activatedSlot_of_entry hentry fun _ => ?_
      exact ⟨e, h, rfl, hm, declines_of_not_allows hc (by simp [PinRule.allows, hr, Except.isOk,
        Except.toBool])⟩
  refine Triple.bind (fun outcome t =>
      After .activationLastTries boundSerial slot tags (outcome = .ok) False t) ?_ fun outcome => ?_
  · refine Triple.weaken (Triple.and changePin_spec (changePin_not_refused hcode hnew))
      (fun _ h => h) fun r t h => ?_
    cases r with
    | ok outcome =>
      exact ⟨h.1.safe, h.1.tagged, fun ho => h.1.ok (by rw [ho]), fun hf => hf.elim⟩
    | error e => exact activatedSlot_of_after h.1 (by simp) (by simpa using h.2)
  · refine Triple.pure fun t ht => activatedSlot_of_after ht ?_ not_refusal_ok
    intro ho
    injection ho with ho
    cases outcome <;> simp [changeToUnblock] at ho ⊢

/-- The activation code as PUK: `RESET RETRY COUNTER` behind the PUK's counter. -/
theorem activateSlotSetup_eight {boundSerial : String} {slot : PinSlot} {tags : List PinSlot}
    {lengths : CardPinLengths R} {pin newPin : PinBytes} {h8 : pin.digitCount = 8}
    (hcode : lengths.checkPuk L pin.digitCount = .ok ())
    (hnew : lengths.checkPin L slot newPin.digitCount = .ok ()) :
    Triple (Entry .activationLastTries boundSerial slot tags)
      (activateSlotSetup L card lengths slot (.eight pin h8) newPin)
      (ActivatedSlot boundSerial slot tags) := by
  refine Triple.bind (fun _ => Ready .activationLastTries boundSerial slot tags
    (.puk lengths.numbering)) ?_ fun _ => ?_
  · refine Triple.weaken (pukRetryFloor_spec stable_entry .activationLastTries) (fun _ h => h)
      fun r t h => ?_
    cases r with
    | ok u => exact ⟨h.1, h.2⟩
    | error e => exact activatedSlot_of_entry h.1 (by simpa using h.2)
  · refine Triple.weaken (Triple.and resetRetryCounter_spec
      (resetRetryCounter_not_refused hcode hnew)) (fun _ h => h) fun r t h => ?_
    exact activatedSlot_of_after h.1 (fun ho => ho) h.2

/-- **`activate_slot_setup`**: probes and presents under one numbering, so it needs nothing
    from the card. -/
theorem activateSlotSetup_spec {boundSerial : String} {slot : PinSlot} {tags : List PinSlot}
    {lengths : CardPinLengths R} {code : ActivationCode} {newPin : PinBytes}
    (hv : checkActivationEntry L lengths code slot (some newPin) = .ok ()) :
    Triple (Entry .activationLastTries boundSerial slot tags)
      (activateSlotSetup L card lengths slot code newPin)
      (ActivatedSlot boundSerial slot tags) := by
  obtain ⟨hcode, hnew⟩ := checkActivationEntry_some hv
  cases code with
  | seven pin h7 => exact activateSlotSetup_seven hcode hnew
  | eight pin h8 => exact activateSlotSetup_eight hcode hnew

theorem checkActivationEntries_ok {lengths : CardPinLengths R} {code : ActivationCode}
    {newPin1 newPin2 : Option PinBytes}
    (h : checkActivationEntries L lengths code newPin1 newPin2 = .ok ()) :
    checkActivationEntry L lengths code .pin1 newPin1 = .ok () ∧
    checkActivationEntry L lengths code .pin2 newPin2 = .ok () := by
  unfold checkActivationEntries at h
  cases h1 : checkActivationEntry L lengths code .pin1 newPin1 with
  | error e => simp [h1, bind, Except.bind, Except.mapError] at h
  | ok u =>
    cases h2 : checkActivationEntry L lengths code .pin2 newPin2 with
    | error e => simp [h1, h2, bind, Except.bind, Except.mapError] at h
    | ok v => exact ⟨rfl, rfl⟩

theorem calm_of_tagged_nil {h : List Event} (ht : Tagged [] h) : Calm h := by
  intro x hx hp
  obtain ⟨s, hmem, _⟩ := ht x hx hp
  exact absurd hmem (by simp)

/-- The PIN2 part of `activate_first`. -/
theorem activatePin2_spec {ctx : CardContext} {lengths : CardPinLengths R} {code : ActivationCode}
    {newPin2 : Option PinBytes} {tags : List PinSlot}
    (hv : checkActivationEntry L lengths code .pin2 newPin2 = .ok ()) :
    Triple (Paused .activationLastTries ctx.boundSerial .pin2 tags)
      (activatePin2 L card ctx lengths code newPin2)
      fun r t => Always (SafeStep .activationLastTries ctx.boundSerial) t ∧
        (Refusal r → Declined .activationLastTries t) ∧ (r = .ok none → Tagged tags t) := by
  cases newPin2 with
  | none => exact Triple.pure fun t ht => ⟨ht.safe, fun h => absurd h not_refusal_ok, fun _ => ht.tagged⟩
  | some pin =>
    refine Triple.bind (fun _ => Entry .activationLastTries ctx.boundSerial .pin2 tags) ?_
      fun _ => ?_
    · refine Triple.weaken (reVerify_spec stable_paused) (fun _ h => h) fun r t h => ?_
      cases r with
      | ok u => exact ⟨h.1, .inr h.2⟩
      | error e => exact ⟨h.1.safe, by simp [h.2], by simp⟩
    · refine Triple.bind (fun _ t => Always (SafeStep .activationLastTries ctx.boundSerial) t) ?_
        fun outcome => Triple.pure fun t ht => ⟨ht, fun h => absurd h not_refusal_ok, by simp⟩
      refine Triple.weaken (activateSlotSetup_spec hv) (fun _ h => h) fun r t h => ?_
      cases r with
      | ok outcome => exact h.1.safe
      | error e => exact ⟨h.1.safe, by simpa using h.2, by simp⟩

/-- The run was refused: with one of the program's own errors, or with a report that says
    no PIN awaited activation and nothing was sent. -/
def activationRefused : Except CardPinError ActivateReport → Bool
  | .error e => refusedLocally e
  | .ok report => report.pin1Outcome.isNone && report.pin2Outcome.isNone

/-- How an activation ends: safe all along, and refused only before anything was presented
    or at a counter probe. -/
def ActivationEnd (boundSerial : String) (r : Except CardPinError ActivateReport)
    (t : List Event) : Prop :=
  Always (SafeStep .activationLastTries boundSerial) t ∧
    (activationRefused r = true → Declined .activationLastTries t ∨ Calm t)

theorem activationEnd_of_paused {boundSerial : String} {slot : PinSlot}
    {r : Except CardPinError ActivateReport} {t : List Event}
    (h : Paused .activationLastTries boundSerial slot [] t) : ActivationEnd boundSerial r t :=
  ⟨h.safe, fun _ => .inr (calm_of_tagged_nil h.tagged)⟩

/-- PIN2 after a PIN1 step that either was not asked for or succeeded. -/
theorem activateRest_spec {ctx : CardContext} {lengths : CardPinLengths R} {code : ActivationCode}
    {newPin2 : Option PinBytes} (tags : List PinSlot) {preflight : ActivatePreflightOutcome}
    {pin1Outcome : Option UnblockOutcome}
    (hv : checkActivationEntry L lengths code .pin2 newPin2 = .ok ())
    (htags : pin1Outcome = none → tags = []) :
    Triple (Paused .activationLastTries ctx.boundSerial .pin2 tags)
      (do
        let pin2Outcome ← activatePin2 L card ctx lengths code newPin2
        return ⟨ctx.readerId, preflight, pin1Outcome, pin2Outcome⟩)
      (ActivationEnd ctx.boundSerial) := by
  refine Triple.bind (fun pin2Outcome t =>
    Always (SafeStep .activationLastTries ctx.boundSerial) t ∧
      (pin2Outcome = none → Tagged tags t)) ?_ fun pin2Outcome => Triple.pure fun t ht => ?_
  · refine Triple.weaken (activatePin2_spec hv) (fun _ h => h) fun r t h => ?_
    cases r with
    | ok outcome => exact ⟨h.1, fun ho => h.2.2 (by rw [ho])⟩
    | error e => exact ⟨h.1, fun hr => .inl (h.2.1 (refusal_error.mpr hr))⟩
  · refine ⟨ht.1, fun hr => .inr ?_⟩
    simp only [activationRefused, Bool.and_eq_true, Option.isNone_iff_eq_none] at hr
    have htagged := ht.2 hr.2
    rw [htags hr.1] at htagged
    exact calm_of_tagged_nil htagged

theorem activateSlots_spec {ctx : CardContext} {options : ActivateOptions}
    {lengths : CardPinLengths R} {code : ActivationCode} {preflight : ActivatePreflightOutcome}
    (hv1 : checkActivationEntry L lengths code .pin1 options.newPin1 = .ok ())
    (hv2 : checkActivationEntry L lengths code .pin2 options.newPin2 = .ok ()) :
    Triple (Paused .activationLastTries ctx.boundSerial .pin1 [])
      (activateSlots L card ctx options lengths code preflight)
      (ActivationEnd ctx.boundSerial) := by
  unfold activateSlots
  cases h1 : options.newPin1 with
  | none =>
    refine Triple.weaken (activateRest_spec [] hv2 fun _ => rfl) ?_ fun _ _ h => h
    intro t ht
    exact ⟨ht.safe, ht.tagged, by simp, ht.ok⟩
  | some newPin1 =>
    rw [h1] at hv1
    refine Triple.bind (fun _ => Entry .activationLastTries ctx.boundSerial .pin1 []) ?_
      fun _ => ?_
    · refine Triple.weaken (reVerify_spec stable_paused) (fun _ h => h) fun r t h => ?_
      cases r with
      | ok u => exact ⟨h.1, .inr h.2⟩
      | error e => exact activationEnd_of_paused h.1
    refine Triple.bind (fun outcome t =>
      After .activationLastTries ctx.boundSerial .pin1 [] (outcome = .ok) False t) ?_
      fun outcome => ?_
    · refine Triple.weaken (activateSlotSetup_spec hv1) (fun _ h => h) fun r t h => ?_
      cases r with
      | ok outcome =>
        exact ⟨h.1.safe, h.1.tagged, fun ho => h.1.ok (by rw [ho]), fun hf => hf.elim⟩
      | error e => exact ⟨h.1.safe, fun hr => .inl (h.2 (refusal_error.mpr hr))⟩
    by_cases ho : outcome = .ok
    · simp only [ho, ne_eq, not_true, if_false]
      refine Triple.weaken (activateRest_spec [.pin1] hv2 (by simp)) ?_ fun _ _ h => h
      intro t ht
      exact ⟨ht.safe, ht.tagged, by simp, ht.ok trivial⟩
    · simp only [ne_eq, ho, not_false_iff, if_true]
      exact Triple.pure fun t ht => ⟨ht.safe, by simp [activationRefused]⟩

/-- A quiet part of a flow that has presented nothing yet. -/
theorem quiet_then {α β : Type} {boundSerial : String} {slot : PinSlot} {m : Session α}
    {f : α → Session β} {rule : PinRule} {post : Except CardPinError β → List Event → Prop}
    (hm : Quiet m)
    (herr : ∀ e t, Paused rule boundSerial slot [] t → post (.error e) t)
    (hf : ∀ a, Triple (Paused rule boundSerial slot []) (f a) post) :
    Triple (Paused rule boundSerial slot []) (m >>= f) post := by
  refine Triple.bind (fun _ => Paused rule boundSerial slot []) ?_ hf
  refine Triple.weaken (hm.keeps stable_paused) (fun _ h => h) fun r t h => ?_
  cases r with
  | ok a => exact h
  | error e => exact herr e t h

theorem paused_nil {rule : PinRule} {boundSerial : String} {slot : PinSlot} :
    Paused rule boundSerial slot [] [] :=
  ⟨trivial, fun _ hx => absurd hx (by simp), by simp, fun _ hx => absurd hx (by simp)⟩

/-- **`activate_first` is safe against every card**, and refuses only before anything was
    presented or at a counter probe. -/
theorem activateFirst_spec {ctx : CardContext} {options : ActivateOptions} :
    Triple (Paused .activationLastTries ctx.boundSerial .pin1 [])
      (activateFirst L card ctx options) (ActivationEnd ctx.boundSerial) := by
  have hend : ∀ (e : CardPinError) (t : List Event),
      Paused .activationLastTries ctx.boundSerial .pin1 [] t →
        ActivationEnd ctx.boundSerial (.error e) t :=
    fun e t ht => activationEnd_of_paused ht
  unfold activateFirst
  refine quiet_then (quiet_lift _) hend fun code => ?_
  refine quiet_then quiet_openSession hend fun _ => ?_
  refine quiet_then quiet_readCardPinLengths hend fun lengths => ?_
  refine quiet_then quiet_probePinActivation hend fun p1 => ?_
  refine quiet_then quiet_probePinActivation hend fun p2 => ?_
  obtain ⟨s1, pin1⟩ := p1
  obtain ⟨s2, pin2⟩ := p2
  dsimp only
  split
  · exact Triple.pure fun t ht => activationEnd_of_paused ht
  refine quiet_then (quiet_lift _) hend fun _ => ?_
  -- the entries are checked once here, for both slots
  refine Triple.bind (fun _ t => Paused .activationLastTries ctx.boundSerial .pin1 [] t ∧
    checkActivationEntries L lengths code options.newPin1 options.newPin2 = .ok ())
    (lift_spec (fun _ _ hr ht => ⟨ht, hr⟩) fun e t _ ht => hend e t ht) fun _ => ?_
  intro h ⟨ht, hv⟩
  obtain ⟨hv1, hv2⟩ := checkActivationEntries_ok hv
  exact activateSlots_spec hv1 hv2 h ht

/-! ## §8. Changing and unblocking -/

/-- The card resolves to the numbering the session was bound under, when the flow asks. -/
def ResolvesTo (card : Card R) (ctx : CardContext) : Prop :=
  ∀ numbering, (resolvePinReferenceScheme card (openSession card ctx.boundSerial []).2).1 =
    .ok numbering → numbering = ctx.numbering

/-- The lengths carry the numbering that the flow resolved. -/
theorem readCardPinLengths_numbering {h : List Event} {lengths : CardPinLengths R}
    (hr : (readCardPinLengths L card h).1 = .ok lengths) :
    (resolvePinReferenceScheme card h).1 = .ok lengths.numbering := by
  have hn : ∀ numbering, Triple (fun _ => True)
      (do
        let objects ← readAuthenticationObjects card
        let pin1 ← listedRange L card numbering objects (.pin numbering .pin1)
        let pin2 ← listedRange L card numbering objects (.pin numbering .pin2)
        let puk ← listedRange L card numbering objects (.puk numbering)
        return ({ numbering
                  pin1 := acceptedRange L pin1 L.pinCapacity L.pinCapacity
                  pin2 := acceptedRange L pin2 L.pinCapacity L.pin2Bounds
                  puk := acceptedRange L puk L.pukCapacity L.pukCapacity } : CardPinLengths R))
      fun r _ => ∀ lengths, r = .ok lengths → lengths.numbering = numbering := by
    intro numbering
    refine Triple.skip (by simp) fun _ => Triple.skip (by simp) fun _ =>
      Triple.skip (by simp) fun _ => Triple.skip (by simp) fun _ =>
        Triple.pure fun t _ lengths hl => ?_
    injection hl with hl
    rw [← hl]
  unfold readCardPinLengths at hr
  change (Flow.bind (resolvePinReferenceScheme card) _ h).1 = _ at hr
  unfold Flow.bind at hr
  cases hres : resolvePinReferenceScheme card h with
  | mk r t =>
    rw [hres] at hr
    cases r with
    | error e => exact absurd hr (by simp)
    | ok numbering => rw [hn numbering t trivial lengths hr]

/-- **`require_activated`** returns what the bound numbering's counter reported. -/
theorem requireActivated_spec {P : List Event → Prop} (hP : Stable P) {ctx : CardContext}
    {slot : PinSlot} :
    Triple P (requireActivated card ctx slot) fun r t => P t ∧ ∀ status, r = .ok status →
      Since (fun e => counterOf e = some (.pin ctx.numbering slot, status)) Presenting t := by
  let Known := fun (probe : Option PinStatus) (t : List Event) => P t ∧ ∀ status,
    probe = some status →
      Since (fun e => counterOf e = some (.pin ctx.numbering slot, status)) Presenting t
  have hstable : ∀ probe, Stable (Known probe) := by
    intro probe t h ht hh
    exact ⟨hP t h ht hh.1, fun status hs => stable_since t h ht (hh.2 status hs)⟩
  unfold requireActivated probePinActivation
  refine Triple.bind (fun p t => Known p.1 t) (Triple.bind (fun probe t => Known probe t) ?_
    fun probe => Triple.bind (fun _ t => Known probe t) ?_ fun changed => Triple.pure fun t ht => ht)
    fun p => ?_
  · refine Triple.attempt (Triple.weaken (pinStatus_spec hP) (fun _ h => h) fun r t h => ?_)
    cases r with
    | error e => exact ⟨h.1, by simp⟩
    | ok status =>
      refine ⟨h.keeps hP, fun status' hs => ?_⟩
      injection hs with hs
      obtain ⟨e, h, rfl, -, hc, -⟩ := h
      exact .inl (hs ▸ hc)
  · refine Triple.weaken ((quiet_attempt quiet_pinChangedFlag).keeps (hstable probe))
      (fun _ h => h) fun r t h => ?_
    cases r with
    | ok changed => exact h
    | error e => exact ⟨h.1, by simp⟩
  · obtain ⟨probe, verdict⟩ := p
    dsimp only
    split
    next status =>
      refine Triple.pure fun t ht => ⟨ht.1, fun status' hs => ?_⟩
      injection hs with hs
      exact ht.2 status' (by rw [hs])
    · exact Triple.throw fun t ht => ⟨ht.1, by simp⟩

/-- How a change or an unblock ends. -/
def FlowEnd {α : Type} (boundSerial : String) (r : Except CardPinError α) (t : List Event) : Prop :=
  Always (SafeStep .retryFloor boundSerial) t ∧ (Refusal r → Calm t)

theorem flowEnd_of_paused {α : Type} {boundSerial : String} {slot : PinSlot}
    {r : Except CardPinError α} {t : List Event}
    (h : Paused .retryFloor boundSerial slot [] t) : FlowEnd boundSerial r t :=
  ⟨h.safe, fun _ => calm_of_tagged_nil h.tagged⟩

theorem flowEnd_of_after {α : Type} {boundSerial : String} {slot : PinSlot}
    {r : Except CardPinError α} {t : List Event} {success refused : Prop}
    (h : After .retryFloor boundSerial slot [] success refused t) (hr : Refusal r → refused) :
    FlowEnd boundSerial r t :=
  ⟨h.safe, fun hf => calm_of_tagged_nil (h.refusal (hr hf))⟩

/-- The first part of both flows: the card's lengths, under the bound numbering. -/
theorem openAndRead_spec {α : Type} {ctx : CardContext} (slot : PinSlot)
    {f : CardPinLengths R → Session α} (hctx : ResolvesTo card ctx)
    (hf : ∀ lengths, lengths.numbering = ctx.numbering →
      Triple (Paused .retryFloor ctx.boundSerial slot []) (f lengths) (FlowEnd ctx.boundSerial)) :
    Triple (fun h => h = [])
      (do
        openSession card ctx.boundSerial
        let lengths ← readCardPinLengths L card
        f lengths)
      (FlowEnd ctx.boundSerial) := by
  refine Triple.bind (fun _ t => t = (openSession card ctx.boundSerial []).2 ∧
    Paused .retryFloor ctx.boundSerial slot [] t) ?_ fun _ => ?_
  · intro h hnil
    rw [hnil]
    have hp : Paused .retryFloor ctx.boundSerial slot [] (openSession card ctx.boundSerial []).2 :=
      quiet_openSession.keeps stable_paused [] paused_nil
    cases (openSession card ctx.boundSerial []).1 with
    | ok u => exact ⟨rfl, hp⟩
    | error e => exact flowEnd_of_paused hp
  · refine Triple.bind (fun lengths t => Paused .retryFloor ctx.boundSerial slot [] t ∧
      lengths.numbering = ctx.numbering) ?_ fun lengths h hh => hf lengths hh.2 h hh.1
    intro h ⟨hh, hpaused⟩
    have hp : Paused .retryFloor ctx.boundSerial slot [] (readCardPinLengths L card h).2 :=
      quiet_readCardPinLengths.keeps stable_paused h hpaused
    cases hr : (readCardPinLengths L card h).1 with
    | ok lengths =>
      have hres := readCardPinLengths_numbering hr
      rw [hh] at hres
      exact ⟨hp, hctx lengths.numbering hres⟩
    | error e => exact flowEnd_of_paused hp

/-- The last part of both flows: the presenting step, and the report of its outcome. -/
theorem report_spec {α β : Type} {boundSerial : String} {slot : PinSlot} {m : Session α}
    {report : α → β} {reference : CredentialReference} {success : Except CardPinError α → Prop}
    (hm : Triple (Ready .retryFloor boundSerial slot [] reference) m
      fun r t => After .retryFloor boundSerial slot [] (success r) (Refusal r) t) :
    Triple (Ready .retryFloor boundSerial slot [] reference)
      (do
        let outcome ← m
        return report outcome)
      (FlowEnd boundSerial) := by
  refine Triple.bind (fun _ t => Always (SafeStep .retryFloor boundSerial) t) ?_ fun outcome =>
    Triple.pure fun t ht => ⟨ht, fun hr => absurd hr not_refusal_ok⟩
  refine Triple.weaken hm (fun _ h => h) fun r t h => ?_
  cases r with
  | ok outcome => exact h.safe
  | error e => exact flowEnd_of_after h (by simp)

theorem changePinFirst_spec {ctx : CardContext} {slot : PinSlot} {current new : PinBytes}
    (hctx : ResolvesTo card ctx) :
    Triple (fun h => h = []) (changePinFirst L card ctx slot current new)
      (FlowEnd ctx.boundSerial) := by
  refine openAndRead_spec slot hctx fun lengths hn => ?_
  refine Triple.bind (fun status t => Paused .retryFloor ctx.boundSerial slot [] t ∧
    Since (fun e => counterOf e = some (.pin ctx.numbering slot, status)) Presenting t) ?_
    fun status => ?_
  · refine Triple.weaken (requireActivated_spec stable_paused) (fun _ h => h) fun r t h => ?_
    cases r with
    | ok status => exact ⟨h.1, h.2 status rfl⟩
    | error e => exact flowEnd_of_paused h.1
  refine Triple.bind (fun _ t => Paused .retryFloor ctx.boundSerial slot [] t ∧
    Since (Permits .retryFloor (.pin ctx.numbering slot)) Presenting t) ?_ fun _ => ?_
  · refine Triple.lift fun t ht => ?_
    cases hr : checkRetryFloor (.ofSlot slot) status with
    | error refusal => exact flowEnd_of_paused ht.1
    | ok u =>
      refine ⟨ht.1, since_mono ?_ ht.2⟩
      intro e he
      exact permits_of_allows he (by simp [PinRule.allows, hr, Except.isOk, Except.toBool])
  refine Triple.bind (fun _ => Ready .retryFloor ctx.boundSerial slot []
    (.pin ctx.numbering slot)) ?_ fun _ => ?_
  · refine Triple.weaken (reVerify_spec (stable_and stable_paused stable_since)) (fun _ h => h)
      fun r t h => ?_
    cases r with
    | ok u => exact ⟨⟨h.1.1, .inr h.2⟩, h.1.2⟩
    | error e => exact flowEnd_of_paused h.1.1
  rw [← hn]
  exact report_spec changePin_spec

theorem unblockPinFirst_spec {ctx : CardContext} {slot : PinSlot} {puk : Puk} {newPin : PinBytes}
    (hctx : ResolvesTo card ctx) :
    Triple (fun h => h = []) (unblockPinFirst L card ctx slot puk newPin)
      (FlowEnd ctx.boundSerial) := by
  refine openAndRead_spec slot hctx fun lengths hn => ?_
  refine quiet_then quiet_requireActivated (fun e t ht => flowEnd_of_paused ht) fun _ => ?_
  refine Triple.bind (fun _ => Entry .retryFloor ctx.boundSerial slot []) ?_ fun _ => ?_
  · refine Triple.weaken (reVerify_spec stable_paused) (fun _ h => h) fun r t h => ?_
    cases r with
    | ok u => exact ⟨h.1, .inr h.2⟩
    | error e => exact flowEnd_of_paused h.1
  refine Triple.bind (fun _ => Ready .retryFloor ctx.boundSerial slot []
    (.puk ctx.numbering)) ?_ fun _ => ?_
  · refine Triple.weaken (pukRetryFloor_spec stable_entry .retryFloor) (fun _ h => h)
      fun r t h => ?_
    cases r with
    | ok u => exact ⟨h.1, h.2⟩
    | error e => exact flowEnd_of_paused h.1.toPaused
  rw [← hn]
  exact report_spec resetRetryCounter_spec

end

/-! ## §9. All three flows -/

/-- A run of one of the three flows. -/
inductive PinFlow where
  | change (ctx : CardContext) (slot : PinSlot) (current new : PinBytes)
  | unblock (ctx : CardContext) (slot : PinSlot) (puk : Puk) (newPin : PinBytes)
  | activate (ctx : CardContext) (options : ActivateOptions)

/-- The rule under which the flow presents PINs. -/
def PinFlow.rule : PinFlow → PinRule
  | .change _ _ _ _ => .retryFloor
  | .unblock _ _ _ _ => .retryFloor
  | .activate _ _ => .activationLastTries

def PinFlow.boundSerial : PinFlow → String
  | .change ctx _ _ _ => ctx.boundSerial
  | .unblock ctx _ _ _ => ctx.boundSerial
  | .activate ctx _ => ctx.boundSerial

/-- The result is one of the program's own refusals. -/
def refused {α : Type} : Except CardPinError α → Bool
  | .error e => refusedLocally e
  | .ok _ => false

/-- The session that the flow leaves, and whether it was refused locally. -/
def PinFlow.run {R : Type} (L : LengthRanges R) (card : Card R) : PinFlow → Bool × List Event
  | .change ctx slot current new =>
    let (r, h) := changePinFirst L card ctx slot current new []
    (refused r, h)
  | .unblock ctx slot puk newPin =>
    let (r, h) := unblockPinFirst L card ctx slot puk newPin []
    (refused r, h)
  | .activate ctx options =>
    let (r, h) := activateFirst L card ctx options []
    (activationRefused r, h)

/-- **A safe run**: every step is safe, and a refused run presented nothing. -/
structure SafeRun (rule : PinRule) (boundSerial : String) (refused : Bool) (h : List Event) :
    Prop where
  steps : Always (SafeStep rule boundSerial) h
  refusal : refused = true → Calm h

/-- No counter is found below its floor once a credential was presented. -/
def LateFree (rule : PinRule) (h : List Event) : Prop :=
  Always (fun e earlier => declines rule e = true → Calm earlier) h

/-- What the card has to do: under `change` and `unblock`, resolve to the bound numbering;
    under `activate`, not report PIN2's counter below its floor after PIN1 was set. -/
def PinFlow.Steady {R : Type} (L : LengthRanges R) (card : Card R) : PinFlow → Prop
  | .change ctx _ _ _ => ResolvesTo card ctx
  | .unblock ctx _ _ _ => ResolvesTo card ctx
  | .activate ctx options =>
    LateFree .activationLastTries (PinFlow.run L card (.activate ctx options)).2

theorem refusal_of_refused {α : Type} {r : Except CardPinError α} (h : refused r = true) :
    Refusal r := by
  cases r with
  | ok a => exact absurd h (by simp [refused])
  | error e => exact ⟨e, rfl, h⟩

theorem calm_of_lateFree {rule : PinRule} {t : List Event} (hl : LateFree rule t)
    (h : Declined rule t ∨ Calm t) : Calm t := by
  rcases h with ⟨e, h, rfl, hm, hd⟩ | h
  · exact stable_calm [e] h (idle_singleton hm) (hl.1 hd)
  · exact h

/-- **PIN-flow safety**: against every card that is steady under the flow, the run is
    safe. -/
theorem pinFlows_safe {R : Type} (L : LengthRanges R) (card : Card R) (flow : PinFlow)
    (hsteady : flow.Steady L card) :
    SafeRun flow.rule flow.boundSerial (flow.run L card).1 (flow.run L card).2 := by
  cases flow with
  | change ctx slot current new =>
    obtain ⟨hsteps, hrefusal⟩ := changePinFirst_spec (L := L) hsteady [] rfl
    exact ⟨hsteps, fun hr => hrefusal (refusal_of_refused hr)⟩
  | unblock ctx slot puk newPin =>
    obtain ⟨hsteps, hrefusal⟩ := unblockPinFirst_spec (L := L) hsteady [] rfl
    exact ⟨hsteps, fun hr => hrefusal (refusal_of_refused hr)⟩
  | activate ctx options =>
    have hend : ActivationEnd ctx.boundSerial (activateFirst L card ctx options []).1
        (activateFirst L card ctx options []).2 := activateFirst_spec [] paused_nil
    obtain ⟨hsteps, hrefusal⟩ := hend
    exact ⟨hsteps, fun hr => calm_of_lateFree hsteady (hrefusal hr)⟩

/-! ## §10. Concrete cards -/

/-- Ranges as pairs of bounds. -/
def pairRanges : LengthRanges (Nat × Nat) where
  new lo hi := if lo ≤ hi then some (lo, hi) else none
  min r := r.1
  max r := r.2
  contains r n := r.1 ≤ n && n ≤ r.2
  intersection r r' :=
    if max r.1 r'.1 ≤ min r.2 r'.2 then some (max r.1 r'.1, min r.2 r'.2) else none
  pinCapacity := (4, 12)
  pin2Bounds := (6, 12)
  pukCapacity := (8, 12)

/-- A card that answers each command the same way every time. -/
def Card.answering (serial : String) (answer : Apdu → Response) : Card (Nat × Nat) where
  openExclusive := .ok ()
  select _ := .ok ()
  tokenInfo _ := .ok (some serial)
  authenticationObjects _ := .ok none
  transmit _ command := .ok (answer command)

/-- Eight digits, enough for each kind of code. -/
def eightDigits : PinBytes := ⟨List.replicate 8 0x31, by decide, by decide, by decide⟩

def sevenDigits : PinBytes := ⟨List.replicate 7 0x32, by decide, by decide, by decide⟩

/-- A session bound under the citizen numbering. -/
def citizenContext (scheme : ActivationScheme) : CardContext where
  readerId := "reader"
  person := "TEST"
  cardSerial := "5000"
  numbering := .citizen
  scheme := scheme
  boundSerial := "5000"

/-- `DF2F 01 v`: the changed flag, and `DF21 04 n …`: the PUK's counter. -/
def pinInfo (changed : UInt8) : Response := ⟨[0xDF, 0x2F, 0x01, changed], .success⟩

def pukInfo (tries : UInt8) : Response := ⟨[0xDF, 0x21, 0x04, tries, 5, 0, 0, 0], .success⟩

/-- PUK of five tries, PINs set; `citizen` answers the numbering probe of PIN1. -/
def pukCard (citizen : StatusWord) : Card (Nat × Nat) :=
  Card.answering "5000" fun
    | .verifyProbe (.pin .citizen .pin1) => ⟨[], citizen⟩
    | .verifyProbe _ => ⟨[], .pinIncorrect 5⟩
    | .getPinInfo _ _ => pinInfo 1
    | .getPukInfo => pukInfo 5
    | .resetRetryCounter _ _ _ => ⟨[], .success⟩
    | _ => ⟨[], .pinIncorrect 4⟩

/-- PINs that await activation with a seven-digit code; `retries` left for PIN2. -/
def presetCard (retries : Nat) : Card (Nat × Nat) :=
  Card.answering "5000" fun
    | .verifyProbe (.pin _ .pin2) => ⟨[], .pinIncorrect retries⟩
    | .verifyProbe _ => ⟨[], .pinIncorrect 5⟩
    | .getPinInfo _ _ => pinInfo 0
    | .getPukInfo => pukInfo 5
    | _ => ⟨[], .success⟩

def unblockPin2 : PinFlow :=
  .unblock (citizenContext .activationCodeIsPuk) .pin2 ⟨eightDigits, by decide⟩ eightDigits

def activateBoth : PinFlow :=
  .activate (citizenContext .presetActivationPin)
    { activationCode := sevenDigits
      newPin1 := some eightDigits
      newPin2 := some eightDigits
      allowReactivate := false }

/-- The credentials a session presented, oldest first. -/
def presented (h : List Event) : List CredentialReference := (h.filterMap presents).reverse

/-- Unblocking PIN2 on a card that resolves to the bound numbering presents the citizen
    PUK, safely. -/
theorem unblockPin2_safe :
    unblockPin2.Steady pairRanges (pukCard (.pinIncorrect 5)) ∧
    presented (unblockPin2.run pairRanges (pukCard (.pinIncorrect 5))).2 = [.puk .citizen] ∧
    SafeRun .retryFloor "5000" (unblockPin2.run pairRanges (pukCard (.pinIncorrect 5))).1
      (unblockPin2.run pairRanges (pukCard (.pinIncorrect 5))).2 := by
  have hsteady : unblockPin2.Steady pairRanges (pukCard (.pinIncorrect 5)) := by
    intro numbering hn
    have hres : (resolvePinReferenceScheme (pukCard (.pinIncorrect 5))
        (openSession (pukCard (.pinIncorrect 5)) "5000" []).2).1 = .ok .citizen := by rfl
    have heq := hres.symm.trans hn
    injection heq with heq
    exact heq.symm
  exact ⟨hsteady, by decide, pinFlows_safe pairRanges _ unblockPin2 hsteady⟩

/-- A permitting probe is a probe of the reference. -/
theorem probed_of_since {rule : PinRule} {reference : CredentialReference} {h : List Event}
    (hs : Since (Permits rule reference) Presenting h) :
    h.any (fun e => (counterOf e).any fun c => c.1 = reference) = true := by
  obtain ⟨later, e, earlier, rfl, ⟨status, hc, _⟩, _⟩ := since_iff.mp hs
  rw [List.any_eq_true]
  exact ⟨e, by simp, by simp [hc]⟩

/-- When the card answers the numbering probes differently than it did when the session
    was bound, `unblock_pin_first` reads the citizen PUK's counter and presents the
    organizational PUK; and a PIN2 with two tries left is refused after PIN1 was set. -/
theorem pinFlows_unsafe :
    (presented (unblockPin2.run pairRanges (pukCard .referenceDataNotFound)).2 =
        [.puk .organizational] ∧
      ¬ SafeRun unblockPin2.rule unblockPin2.boundSerial
        (unblockPin2.run pairRanges (pukCard .referenceDataNotFound)).1
        (unblockPin2.run pairRanges (pukCard .referenceDataNotFound)).2) ∧
    (presented (activateBoth.run pairRanges (presetCard 2)).2 = [.pin .citizen .pin1] ∧
      ¬ SafeRun activateBoth.rule activateBoth.boundSerial
        (activateBoth.run pairRanges (presetCard 2)).1
        (activateBoth.run pairRanges (presetCard 2)).2) := by
  refine ⟨⟨by decide, fun hsafe => ?_⟩, ⟨by decide, fun hsafe => ?_⟩⟩
  · have hsteps := hsafe.steps
    have hrun : ∃ e h, (unblockPin2.run pairRanges (pukCard .referenceDataNotFound)).2 = e :: h ∧
        presents e = some (.puk .organizational) ∧
        h.any (fun e => (counterOf e).any fun c => c.1 = .puk .organizational) = false :=
      ⟨_, _, rfl, rfl, by decide⟩
    obtain ⟨e, h, hrun, hp, hnone⟩ := hrun
    rw [hrun] at hsteps
    have hprobed := probed_of_since (hsteps.1.probed _ hp)
    rw [hnone] at hprobed
    exact absurd hprobed (by simp)
  · have hcalm := hsafe.refusal (by decide)
    have hpresent : ((activateBoth.run pairRanges (presetCard 2)).2.any
        fun e => (presents e).isSome) = true := by decide
    obtain ⟨e, he, hp⟩ := List.any_eq_true.mp hpresent
    exact hcalm e he hp

end CardPin

end RefineId
