/-
  RefineId.SessionLifetime — the PKCS#11 library from one `C_Initialize` to the next.
  ════════════════════════════════════════════════════════════════════════════

  `crates/refineid-pkcs11/src/api.rs`: `c_initialize` puts a fresh state in `MODULE` and
  `c_finalize` drops it.  Without a state every other call is refused, once its arguments
  have been looked at.  A `C_Sign` that waits for its card outlives the state it was made
  in, and the next state gives out the session handles from the first again.

  Main results:
    • `call_badArguments`       : arguments are refused whether there is a state or not.
    • `lifetime_run`            : between the two calls the library runs as its state does.
    • `session_kept`            : an open session was open ever since it was opened.
    • `signature_delivered_iff` : a signature is delivered exactly to a session that has
                                  stayed open.
-/
import RefineId.SessionAccounts

namespace RefineId.SessionOperations

open Lib Slots

/-! ## §1. The library -/

/-- `MODULE`, with the calls that wait for a card. -/
inductive Library where
  | finalized (inFlight : List CardRequest)
  | initialized (s : State)

/-- The library as it is loaded. -/
def Library.initial : Library := .finalized []

/-- The session of a handle, if there is one. -/
def Library.session : Library → Nat → Option Session
  | .finalized _, _ => none
  | .initialized s, handle => s.moduleState.sessions handle

/-- `c_initialize`; `reserved` says that the arguments have a reserved pointer. -/
def cInitialize (l : Library) (reserved : Bool) : Reply × Library :=
  if reserved then (.refused .argumentsBad, l)
  else match l with
    | .finalized inFlight => (.done, .initialized { State.initial with inFlight := inFlight })
    | .initialized s => (.refused .cryptokiAlreadyInitialized, .initialized s)

/-- `c_finalize`; `reserved` says that its pointer is not NULL.  The PIN caches that it
    clears go with the state. -/
def cFinalize (l : Library) (reserved : Bool) : Reply × Library :=
  if reserved then (.refused .argumentsBad, l)
  else match l with
    | .finalized inFlight => (.refused .cryptokiNotInitialized, .finalized inFlight)
    | .initialized s => (.done, .finalized s.inFlight)

/-- The arguments of `c_sign_init` and `c_verify_init`; `wanted` is the key they are for. -/
def badKeyArguments (wanted : Nat) (mechanism : Option Nat) (key : Nat) : Option CkRv :=
  match mechanism with
  | none => some .argumentsBad
  | some requested =>
    if key ≠ wanted then some .keyHandleInvalid
    else if (Mechanism.fromCkType requested).isNone then some .mechanismInvalid
    else none

/-- What a call is refused with before it looks for the state. -/
def Call.badArguments : Call → Option CkRv
  | .table (.openSession _ flags) =>
    if flags.testBit ckfSerialSession then none else some .sessionParallelNotSupported
  | .findObjectsInit _ none _ => some .argumentsBad
  | .signInit _ mechanism key _ => badKeyArguments objPrivateKey mechanism key
  | .sign _ _ .noLength _ => some .argumentsBad
  | .verifyInit _ mechanism key _ => badKeyArguments objPublicKey mechanism key
  | _ => none

/-- `c_sign` after the card: a signature needs a state, and its session there. -/
def Library.signReturn (l : Library) (request : CardRequest)
    (outcome : Except CkRv (List UInt8)) : Reply :=
  match l, outcome with
  | .finalized _, .error rv => .refused rv
  | .finalized _, .ok _ => .refused .cryptokiNotInitialized
  | .initialized s, outcome => cSignReturn s request outcome

/-- A call without a state. -/
def callFinalized (inFlight : List CardRequest) : Call → Reply × Library
  | .signReturn position outcome =>
    match inFlight[position]? with
    | none => (.done, .finalized inFlight)
    | some request =>
      ((Library.finalized inFlight).signReturn request outcome,
        .finalized (inFlight.eraseIdx position))
  | c => (.refused (c.badArguments.getD .cryptokiNotInitialized), .finalized inFlight)

/-- The calls of the library. -/
inductive LibraryCall where
  | init (reserved : Bool)
  | finalize (reserved : Bool)
  | call (c : Call)

/-- The call of the state in between. -/
def LibraryCall.inner : LibraryCall → Option Call
  | .call c => some c
  | _ => none

section
variable (maxId : Nat)

/-- One call of the library. -/
def Library.step (l : Library) : LibraryCall → Reply × Library
  | .init reserved => cInitialize l reserved
  | .finalize reserved => cFinalize l reserved
  | .call c =>
    match l with
    | .finalized inFlight => callFinalized inFlight c
    | .initialized s =>
      let (reply, s') := SessionOperations.call maxId s c
      (reply, .initialized s')

/-- The library after a call. -/
def Library.next (l : Library) (c : LibraryCall) : Library := (l.step maxId c).2

/-- The state after a call. -/
def State.next (s : State) (c : Call) : State := (call maxId s c).2

/-- The library after a run, of any number of lifetimes. -/
def lifetimes (calls : List LibraryCall) : Library := run (Library.next maxId) .initial calls

end

section
variable {maxId : Nat}

theorem badKeyArguments_some {wanted key : Nat} {mechanism : Option Nat} {rv : CkRv}
    (h : badKeyArguments wanted mechanism key = some rv) :
    (mechanism = none ∧ rv = .argumentsBad) ∨ ∃ requested, mechanism = some requested ∧
      (key ≠ wanted ∧ rv = .keyHandleInvalid ∨
        key = wanted ∧ Mechanism.fromCkType requested = none ∧ rv = .mechanismInvalid) := by
  cases mechanism with
  | none => exact .inl ⟨rfl, (Option.some.inj h).symm⟩
  | some requested =>
    refine .inr ⟨requested, rfl, ?_⟩
    simp only [badKeyArguments] at h
    split at h
    next hkey => exact .inl ⟨hkey, (Option.some.inj h).symm⟩
    next hkey =>
      split at h
      next hnone =>
        exact .inr ⟨not_not.mp hkey, Option.isNone_iff_eq_none.mp hnone, (Option.some.inj h).symm⟩
      · cases h

/-- **Arguments are looked at first**: what refuses a call without a state refuses it with one,
    and leaves the state as it is. -/
theorem call_badArguments (s : State) {c : Call} (hc : ∀ op, c ≠ .table op) {rv : CkRv}
    (h : c.badArguments = some rv) : call maxId s c = (.refused rv, s) := by
  cases c with
  | table op => exact absurd rfl (hc op)
  | findObjectsInit handle template built =>
    cases template with
    | none => rw [← Option.some.inj h]; rfl
    | some template => cases h
  | findObjects handle maxCount => cases h
  | findObjectsFinal handle => cases h
  | signInit handle mechanism key built =>
    show cSignInit s handle mechanism key built = _
    obtain ⟨rfl, rfl⟩ | ⟨requested, rfl, ⟨hkey, rfl⟩ | ⟨rfl, hnone, rfl⟩⟩ := badKeyArguments_some h
    · rfl
    · simp [cSignInit, hkey]
    · simp [cSignInit, hnone]
  | sign handle input buffer cache =>
    cases buffer with
    | noLength => rw [← Option.some.inj h]; rfl
    | query => cases h
    | room capacity => cases h
  | signReturn position outcome => cases h
  | verifyInit handle mechanism key built =>
    show cVerifyInit s handle mechanism key built = _
    obtain ⟨rfl, rfl⟩ | ⟨requested, rfl, ⟨hkey, rfl⟩ | ⟨rfl, hnone, rfl⟩⟩ := badKeyArguments_some h
    · rfl
    · simp [cVerifyInit, hkey]
    · simp [cVerifyInit, hnone]
  | verify handle input signature built => cases h

/-! ## §2. One lifetime -/

theorem next_initialized (s : State) {c : LibraryCall} (h : c ≠ .finalize false) :
    Library.next maxId (.initialized s) c =
      .initialized (run (State.next maxId) s c.inner.toList) := by
  cases c with
  | init reserved => cases reserved <;> rfl
  | finalize reserved =>
    cases reserved with
    | false => exact absurd rfl h
    | true => rfl
  | call c => rfl

/-- **A lifetime**: up to the next `C_Finalize` the library runs as its state does. -/
theorem lifetime_run (s : State) {calls : List LibraryCall} (h : .finalize false ∉ calls) :
    run (Library.next maxId) (.initialized s) calls =
      .initialized (run (State.next maxId) s (calls.filterMap LibraryCall.inner)) := by
  induction calls generalizing s with
  | nil => rfl
  | cons c calls ih =>
    rw [List.mem_cons, not_or] at h
    rw [run_cons, next_initialized s (Ne.symm h.1), ih _ h.2, ← run_append]
    congr 2
    cases c <;> rfl

/-! ## §3. Sessions over runs -/

/-- Below the last handle: what is open was opened before the next handle. -/
def HandlesBelow (maxId : Nat) (m : ModuleState TokenObjects) : Prop :=
  ∀ handle, handle < maxId → m.sessions handle ≠ none → handle < m.nextSessionHandle

theorem SessionsMove.handlesBelow {m m' : ModuleState TokenObjects} (h : SessionsMove maxId m m')
    (hbelow : HandlesBelow maxId m) : HandlesBelow maxId m' := by
  intro handle hmax hopen
  obtain ⟨hnext, hsessions⟩ | ⟨hnext, hsessions⟩ := h
  · rw [hnext]
    apply hbelow handle hmax
    intro hnone
    obtain hsame | hclosed := hsessions handle
    · exact hopen (hsame.trans hnone)
    · exact hopen hclosed
  · rw [hnext, saturatingSucc]
    by_cases hself : handle = m.nextSessionHandle
    · omega
    · rw [hsessions handle hself] at hopen
      have := hbelow handle hmax hopen
      omega

/-- A handle that was given out stays given out. -/
theorem SessionsMove.given {m m' : ModuleState TokenObjects} (h : SessionsMove maxId m m')
    {handle : Nat} (hmax : handle < maxId) (hgiven : handle < m.nextSessionHandle) :
    handle < m'.nextSessionHandle := by
  obtain ⟨hnext, -⟩ | ⟨hnext, -⟩ := h
  · rwa [hnext]
  · rw [hnext, saturatingSucc]
    omega

/-- Such a handle, once closed, stays closed. -/
theorem SessionsMove.closed {m m' : ModuleState TokenObjects} (h : SessionsMove maxId m m')
    {handle : Nat} (hgiven : handle < m.nextSessionHandle)
    (hclosed : m.sessions handle = none) : m'.sessions handle = none := by
  obtain ⟨-, hsessions⟩ | ⟨-, hsessions⟩ := h
  · obtain hsame | hnone := hsessions handle
    · exact hsame.trans hclosed
    · exact hnone
  · rw [hsessions handle (by omega), hclosed]

theorem handlesBelow_initial : HandlesBelow maxId (.initial : ModuleState TokenObjects) :=
  fun _ _ hopen => absurd rfl hopen

/-- The handles of the library's state, when it has one. -/
def Library.HandlesBelow (maxId : Nat) (l : Library) : Prop :=
  ∀ s, l = .initialized s → SessionOperations.HandlesBelow maxId s.moduleState

theorem handlesBelow_next {l : Library} (h : l.HandlesBelow maxId) (c : LibraryCall) :
    (l.next maxId c).HandlesBelow maxId := by
  intro s' hs'
  cases l with
  | initialized s =>
    by_cases hend : c = .finalize false
    · subst hend
      cases hs'
    · rw [next_initialized s hend] at hs'
      cases hs'
      exact run_invariant (P := fun s : State => SessionOperations.HandlesBelow maxId s.moduleState)
        (fun s c hs => (call_sessionsMove s c).handlesBelow hs) (h s rfl) _
  | finalized inFlight =>
    cases c with
    | init reserved =>
      cases reserved with
      | false =>
        cases hs'
        exact handlesBelow_initial
      | true => cases hs'
    | finalize reserved => cases reserved <;> cases hs'
    | call c =>
      cases c with
      | signReturn position outcome =>
        simp only [Library.next, Library.step, callFinalized] at hs'
        split at hs' <;> cases hs'
      | _ => cases hs'

theorem handlesBelow_lifetimes (calls : List LibraryCall) :
    (lifetimes maxId calls).HandlesBelow maxId := by
  refine run_invariant (P := Library.HandlesBelow maxId) (fun _ c h => handlesBelow_next h c) ?_
    calls
  intro s hs
  cases hs

theorem given_run {s : State} {handle : Nat} (hmax : handle < maxId)
    (hgiven : handle < s.moduleState.nextSessionHandle) (calls : List Call) :
    handle < (run (State.next maxId) s calls).moduleState.nextSessionHandle := by
  refine run_invariant (P := fun s : State => handle < s.moduleState.nextSessionHandle) ?_
    hgiven calls
  intro s c hs
  exact (call_sessionsMove s c).given hmax hs

theorem closed_run {s : State} {handle : Nat} (hmax : handle < maxId)
    (hgiven : handle < s.moduleState.nextSessionHandle)
    (hclosed : s.moduleState.sessions handle = none) (calls : List Call) :
    (run (State.next maxId) s calls).moduleState.sessions handle = none := by
  induction calls generalizing s with
  | nil => exact hclosed
  | cons c calls ih =>
    have hmove := @call_sessionsMove maxId s c
    exact ih (hmove.given hmax hgiven) (hmove.closed hgiven hclosed)

/-- **A session that is open was open ever since it was opened**, until handles run out. -/
theorem session_kept {s : State} (before later : List Call) {handle : Nat} (hmax : handle < maxId)
    (hgiven : handle < s.moduleState.nextSessionHandle)
    (hopen : (run (State.next maxId) s (before ++ later)).moduleState.sessions handle ≠ none) :
    (run (State.next maxId) s before).moduleState.sessions handle ≠ none := by
  intro hclosed
  apply hopen
  rw [run_append]
  exact closed_run hmax (given_run hmax hgiven before) hclosed later

/-! ## §4. The signature of a card -/

/-- A request is made by a state, about a session that is open in it. -/
theorem step_sent {l : Library} {handle : Nat} {input : List UInt8} {buffer : Buffer}
    {cache : Except CkRv PinCache.PinSafetyCache} {request : CardRequest}
    (h : (l.step maxId (.call (.sign handle input buffer cache))).1 = .sent request) :
    ∃ s, l = .initialized s ∧ request.session = handle ∧
      request.mechanism.signatureLen ≤ request.capacity ∧
        s.moduleState.sessions handle ≠ none := by
  cases l with
  | finalized inFlight => cases h
  | initialized s => exact ⟨s, rfl, sign_sent h⟩

/-- **A signature is delivered** to the session that asked for it, exactly if that session has
    stayed open while the card worked, over any number of lifetimes before; as long as the card
    works there is no `C_Finalize`, after which the handle may come to be another session's. -/
theorem signature_delivered_iff (calls later : List LibraryCall) {handle : Nat}
    {input bytes : List UInt8} {buffer : Buffer} {cache : Except CkRv PinCache.PinSafetyCache}
    {request : CardRequest}
    (hsent : ((lifetimes maxId calls).step maxId (.call (.sign handle input buffer cache))).1 =
      .sent request) (hmax : handle < maxId)
    (hbytes : bytes.length ≤ request.mechanism.signatureLen) (hlater : .finalize false ∉ later) :
    (lifetimes maxId (calls ++ .call (.sign handle input buffer cache) :: later)).signReturn request
        (.ok bytes) = .signature bytes ↔
      ∀ before, before <+: later →
        (lifetimes maxId (calls ++ .call (.sign handle input buffer cache) :: before)).session
          handle ≠ none := by
  obtain ⟨s, hs, hsession, hcapacity, hopen⟩ := step_sent hsent
  set asked : Call := .sign handle input buffer cache with hasked
  -- what follows the call belongs to the lifetime it was made in
  have hrun (calls' : List LibraryCall) (hcalls' : .finalize false ∉ calls') :
      lifetimes maxId (calls ++ .call asked :: calls') =
        .initialized (run (State.next maxId) (s.next maxId asked)
          (calls'.filterMap LibraryCall.inner)) := by
    rw [lifetimes, run_append, run_cons]
    show run _ ((lifetimes maxId calls).next maxId (.call asked)) calls' = _
    rw [hs]
    exact lifetime_run (s.next maxId asked) hcalls'
  have hgiven : handle < (s.next maxId asked).moduleState.nextSessionHandle :=
    (call_sessionsMove s asked).given hmax (handlesBelow_lifetimes calls s hs handle hmax hopen)
  constructor
  · intro hdelivered before hbefore
    obtain ⟨rest, rfl⟩ := hbefore
    have hnot : .finalize false ∉ before := fun hmem => hlater (List.mem_append_left _ hmem)
    rw [hrun _ hlater] at hdelivered
    rw [hrun _ hnot]
    rw [List.filterMap_append] at hdelivered
    refine session_kept _ (rest.filterMap LibraryCall.inner) hmax hgiven ?_
    intro hclosed
    have hrefused := @cSignReturn_closed _ request bytes (by rw [hsession]; exact hclosed)
    cases hdelivered.symm.trans hrefused
  · intro hkept
    have hlast := hkept later List.prefix_rfl
    rw [hrun _ hlater] at hlast ⊢
    refine cSignReturn_open ?_ (hbytes.trans hcapacity)
    rw [hsession]
    exact hlast

/-- A library with a session, which asks for a signature. -/
def sampleAsking : List LibraryCall :=
  .init false :: (sampleOpening.map .call ++
    [.call (.signInit 1 (some 0x1041) 2 (.error .deviceError))])

/-- The session is closed while the card works. -/
theorem closed_session_gets_none :
    (lifetimes 4294967295 (sampleAsking ++
        .call (.sign 1 [0x2A] (.room 96) (.ok (.new []))) ::
          [.call (.table (.closeSession 1))])).signReturn ⟨1, "Reader", .ecdsa, [0x2A], 96⟩
        (.ok [0x01]) = .signature [0x01] ↔
      ∀ before, before <+: [LibraryCall.call (.table (.closeSession 1))] →
        (lifetimes 4294967295 (sampleAsking ++
          .call (.sign 1 [0x2A] (.room 96) (.ok (.new []))) :: before)).session 1 ≠ none :=
  signature_delivered_iff _ _ rfl (by decide) (by decide) (by simp)

/-- A session of the next lifetime has the handle of one of the last. -/
example : (lifetimes 4294967295 (sampleAsking ++
    .call (.sign 1 [0x2A] (.room 96) (.ok (.new []))) ::
      .finalize false :: .init false :: sampleOpening.map .call)).signReturn
        ⟨1, "Reader", .ecdsa, [0x2A], 96⟩ (.ok [0x01]) = .signature [0x01] := rfl

end

end RefineId.SessionOperations
