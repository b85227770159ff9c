/-
  RefineId.View — the requester's view of its custodians.
  ════════════════════════════════════════════════════════════════════════════

  `crates/refineid-rapp-core/src/view.rs` keeps one small machine per pairing and lets
  it decide when this computer may dial its phone.  Discovery, dials and session ends
  all move it, in any order and for any pairing.

  Times are milliseconds of the continuous clock.  The length of the redial window is a
  constant of the engine and a parameter here; so is the type of pairing ids, of which
  only equality matters.

  Main results:
    • `step_frame`         : an event of one pairing leaves every other view alone.
    • `step_withdrawn`     : only an appearance, a session event or the pairing's leaving
                             ends a withdrawal.
    • `withdrawn_no_dial`  : until then nothing is dialed.
    • `step_window`        : without appearance, consumer or session event an open window
                             stays where it is or closes for good.
    • `redial_law`         : the redial window over whole runs.
-/
import RefineId.Lib.Run

namespace RefineId.View

open Lib

/-! ## §1. The view of one custodian -/

/-- `ViewState`. -/
inductive ViewState where
  | idle
  | connecting (windowOpenedMs : Option Nat)
  | connected
  | withdrawn
  deriving Repr, DecidableEq

/-- `RequesterSessionEnd` of the engine. -/
inductive RequesterSessionEnd where
  | revoked
  | withdrawn
  | violation
  | loss
  deriving Repr, DecidableEq

/-- `CustodianView`: its state, and what was in sight at the last look. -/
structure CustodianView where
  state : ViewState
  inSight : Finset String
  deriving DecidableEq

/-- `CustodianView::new`. -/
def CustodianView.new : CustodianView := ⟨.idle, ∅⟩

/-- The views of the process, by pairing (`VIEWS`). -/
abbrev Views (PairId : Type) := PairId → Option CustodianView

variable {PairId : Type} [DecidableEq PairId]

/-- `VIEWS` at the start of the process. -/
def Views.empty : Views PairId := fun _ => none

/-- `with_view`: the view is made idle on first use. -/
def withView {α : Type} (views : Views PairId) (pairId : PairId)
    (change : CustodianView → α × CustodianView) : α × Views PairId :=
  let changed := change ((views pairId).getD .new)
  (changed.1, Function.update views pairId (some changed.2))

/-- `views().remove(..)`. -/
def remove (views : Views PairId) (pairId : PairId) : Views PairId :=
  Function.update views pairId none

/-- `state`. -/
def state (views : Views PairId) (pairId : PairId) : ViewState :=
  ((views pairId).map CustodianView.state).getD .idle

/-! ## §2. The events -/

/-- `look`: whether something is in sight that was not at the previous look. -/
def look (views : Views PairId) (pairId : PairId) (sightings : List String) :
    Bool × Views PairId :=
  withView views pairId fun view =>
    let appeared := sightings.any fun seen => decide (seen ∉ view.inSight)
    let state :=
      if appeared = true ∧ view.state ≠ .connected then .connecting none else view.state
    (appeared, ⟨state, sightings.toFinset⟩)

/-- `withdrawn_record_matched`: an open session outranks discovery. -/
def withdrawnRecordMatched (views : Views PairId) (pairId : PairId) : Views PairId :=
  (withView views pairId fun view =>
    if view.state ≠ .connected then ((), { view with state := .withdrawn }) else ((), view)).2

section
variable (redialWindowMs : Nat)

/-- `dial_admitted`. -/
def dialAdmitted (views : Views PairId) (pairId : PairId) (nowMs : Nat) (consumerAsked : Bool) :
    Bool × Views PairId :=
  withView views pairId fun view =>
    match view.state with
    | .withdrawn => (false, view)
    | .connected => (true, view)
    | .connecting none => (true, view)
    | .connecting (some openedMs) =>
      if nowMs - openedMs < redialWindowMs then (true, view)
      else if consumerAsked then (true, { view with state := .connecting none })
      else (false, { view with state := .idle })
    | .idle =>
      if consumerAsked then (true, { view with state := .connecting none })
      else (false, view)

/-- `dial_failed`: the window opens with the first failed dial and runs on. -/
def dialFailed (views : Views PairId) (pairId : PairId) (nowMs : Nat) : Views PairId :=
  (withView views pairId fun view =>
    match view.state with
    | .connecting windowOpenedMs =>
      let openedMs := windowOpenedMs.getD nowMs
      if redialWindowMs ≤ nowMs - openedMs then ((), { view with state := .idle })
      else ((), { view with state := .connecting (some openedMs) })
    | _ => ((), view)).2

end

/-- `session_opened`. -/
def sessionOpened (views : Views PairId) (pairId : PairId) : Views PairId :=
  (withView views pairId fun view => ((), { view with state := .connected })).2

/-- `session_closed_here`. -/
def sessionClosedHere (views : Views PairId) (pairId : PairId) : Views PairId :=
  (withView views pairId fun view => ((), { view with state := .idle })).2

/-- `session_ended`: a revocation ends the view. -/
def sessionEnded (views : Views PairId) (pairId : PairId) (ended : RequesterSessionEnd)
    (nowMs : Nat) : Views PairId :=
  if ended = .revoked then remove views pairId
  else (withView views pairId fun view =>
    let state := match ended with
      | .withdrawn => .withdrawn
      | .violation | .revoked => .idle
      | .loss => .connecting (some nowMs)
    ((), { view with state := state })).2

/-- `pairing_left`. -/
def pairingLeft (views : Views PairId) (pairId : PairId) : Views PairId :=
  remove views pairId

/-! ## §3. Runs -/

/-- What can happen to one pairing's view. -/
inductive Act where
  | look (sightings : List String)
  | withdrawnRecordMatched
  | dialAdmitted (nowMs : Nat) (consumerAsked : Bool)
  | dialFailed (nowMs : Nat)
  | sessionOpened
  | sessionClosedHere
  | sessionEnded (ended : RequesterSessionEnd) (nowMs : Nat)
  | pairingLeft
  deriving Repr, DecidableEq

/-- A call of the tracker. -/
structure Event (PairId : Type) where
  pairId : PairId
  act : Act
  deriving Repr, DecidableEq

variable (redialWindowMs : Nat)

/-- The tracker after one call. -/
def step (views : Views PairId) (e : Event PairId) : Views PairId :=
  match e.act with
  | .look sightings => (look views e.pairId sightings).2
  | .withdrawnRecordMatched => withdrawnRecordMatched views e.pairId
  | .dialAdmitted nowMs asked => (dialAdmitted redialWindowMs views e.pairId nowMs asked).2
  | .dialFailed nowMs => dialFailed redialWindowMs views e.pairId nowMs
  | .sessionOpened => sessionOpened views e.pairId
  | .sessionClosedHere => sessionClosedHere views e.pairId
  | .sessionEnded ended nowMs => sessionEnded views e.pairId ended nowMs
  | .pairingLeft => pairingLeft views e.pairId

/-- The tracker after a run from the start of the process. -/
def after (events : List (Event PairId)) : Views PairId :=
  run (step redialWindowMs) Views.empty events

/-- Whether the tracker lets a dial through after `events`. -/
def admits (events : List (Event PairId)) (pairId : PairId) (nowMs : Nat) (asked : Bool) : Bool :=
  (dialAdmitted redialWindowMs (after redialWindowMs events) pairId nowMs asked).1

/-! ## §4. What one event does -/

omit [DecidableEq PairId] in
theorem state_of_some {views : Views PairId} {p : PairId} {view : CustodianView}
    (h : views p = some view) : state views p = view.state := by
  simp [state, h]

theorem withView_self {α : Type} (views : Views PairId) (p : PairId)
    (change : CustodianView → α × CustodianView) :
    (withView views p change).2 p = some (change ((views p).getD .new)).2 := by
  simp [withView]

theorem withView_frame {α : Type} (views : Views PairId) {p q : PairId} (h : q ≠ p)
    (change : CustodianView → α × CustodianView) :
    (withView views p change).2 q = views q := by
  simp [withView, h]

omit [DecidableEq PairId] in
/-- A view that is not there counts as a fresh one. -/
theorem getD_new_state (views : Views PairId) (p : PairId) :
    ((views p).getD .new).state = state views p := by
  unfold state
  cases views p <;> rfl

theorem remove_state (views : Views PairId) (p : PairId) : state (remove views p) p = .idle := by
  simp [state, remove]

theorem withView_state {α : Type} (views : Views PairId) (p : PairId)
    (change : CustodianView → α × CustodianView) :
    state (withView views p change).2 p = (change ((views p).getD .new)).2.state :=
  state_of_some (withView_self views p change)

/-- **Frame.** An event of one pairing leaves every other pairing's view alone. -/
theorem step_frame (views : Views PairId) (e : Event PairId) {q : PairId} (h : e.pairId ≠ q) :
    step redialWindowMs views e q = views q := by
  have hq : q ≠ e.pairId := fun heq => h heq.symm
  have hremove : remove views e.pairId q = views q := by simp [remove, hq]
  unfold step
  cases e.act with
  | look sightings => exact withView_frame views hq _
  | withdrawnRecordMatched => exact withView_frame views hq _
  | dialAdmitted nowMs asked => exact withView_frame views hq _
  | dialFailed nowMs => exact withView_frame views hq _
  | sessionOpened => exact withView_frame views hq _
  | sessionClosedHere => exact withView_frame views hq _
  | sessionEnded ended nowMs =>
    dsimp only [sessionEnded]
    split
    · exact hremove
    · exact withView_frame views hq _
  | pairingLeft => exact hremove

theorem step_state_frame (views : Views PairId) (e : Event PairId) {q : PairId}
    (h : e.pairId ≠ q) : state (step redialWindowMs views e) q = state views q := by
  unfold state
  rw [step_frame redialWindowMs views e h]

/-- A look without a new sighting keeps the state. -/
theorem look_state (views : Views PairId) (p : PairId) (sightings : List String)
    (h : (look views p sightings).1 = false) :
    state (look views p sightings).2 p = state views p := by
  unfold look at h ⊢
  rw [withView_state, ← getD_new_state]
  dsimp only [withView] at h ⊢
  rw [h]
  rfl

/-- What a matched withdrawn record makes of a state. -/
theorem withdrawnRecordMatched_state (views : Views PairId) (p : PairId) :
    state (withdrawnRecordMatched views p) p =
      if state views p = .connected then .connected else .withdrawn := by
  unfold withdrawnRecordMatched
  rw [withView_state]
  by_cases hc : state views p = .connected
  · rw [if_pos hc]
    simp [getD_new_state, hc]
  · rw [if_neg hc]
    simp [getD_new_state, hc]

/-- The answer of an admission check, and the state it leaves, by the state it finds. -/
theorem dialAdmitted_spec (views : Views PairId) (p : PairId) (nowMs : Nat) (asked : Bool) :
    ((dialAdmitted redialWindowMs views p nowMs asked).1,
      state (dialAdmitted redialWindowMs views p nowMs asked).2 p) =
    match state views p with
    | .withdrawn => (false, .withdrawn)
    | .connected => (true, .connected)
    | .connecting none => (true, .connecting none)
    | .connecting (some openedMs) =>
      if nowMs - openedMs < redialWindowMs then (true, .connecting (some openedMs))
      else if asked then (true, .connecting none) else (false, .idle)
    | .idle => if asked then (true, .connecting none) else (false, .idle) := by
  unfold dialAdmitted
  rw [withView_state]
  dsimp only [withView]
  rw [← getD_new_state]
  generalize (views p).getD .new = view
  obtain ⟨viewState, inSight⟩ := view
  cases viewState with
  | idle => cases asked <;> rfl
  | connecting windowOpenedMs =>
    cases windowOpenedMs with
    | none => rfl
    | some openedMs =>
      dsimp only
      split
      · rfl
      · cases asked <;> rfl
  | connected => rfl
  | withdrawn => rfl

/-- What a failed dial makes of a state. -/
theorem dialFailed_state (views : Views PairId) (p : PairId) (nowMs : Nat) :
    state (dialFailed redialWindowMs views p nowMs) p =
      match state views p with
      | .connecting windowOpenedMs =>
        if redialWindowMs ≤ nowMs - windowOpenedMs.getD nowMs then .idle
        else .connecting (some (windowOpenedMs.getD nowMs))
      | other => other := by
  unfold dialFailed
  rw [withView_state, ← getD_new_state]
  generalize (views p).getD .new = view
  obtain ⟨viewState, inSight⟩ := view
  cases viewState with
  | connecting windowOpenedMs =>
    dsimp only
    split <;> rfl
  | idle => rfl
  | connected => rfl
  | withdrawn => rfl

/-! ## §5. Withdrawal -/

/-- What ends a withdrawal of `p`: a look that sees something new, a session event of the
    pairing, or its leaving. -/
def Lifts (p : PairId) (views : Views PairId) (e : Event PairId) : Prop :=
  e.pairId = p ∧ match e.act with
    | .look sightings => (look views p sightings).1 = true
    | .sessionOpened | .sessionClosedHere | .sessionEnded _ _ | .pairingLeft => True
    | .withdrawnRecordMatched | .dialAdmitted _ _ | .dialFailed _ => False

instance (p : PairId) (views : Views PairId) (e : Event PairId) : Decidable (Lifts p views e) := by
  unfold Lifts
  cases e.act <;> infer_instance

/-- Nothing in the run ends a withdrawal of `p`. -/
def Unlifted (p : PairId) (views : Views PairId) (events : List (Event PairId)) : Prop :=
  Along (step redialWindowMs) (fun views e => ¬ Lifts p views e) views events

/-- **A withdrawal survives every event that does not lift it.** -/
theorem step_withdrawn (p : PairId) (views : Views PairId) (e : Event PairId)
    (h : state views p = .withdrawn) (hlift : ¬ Lifts p views e) :
    state (step redialWindowMs views e) p = .withdrawn := by
  by_cases hp : e.pairId = p
  · unfold step
    cases hact : e.act with
    | look sightings =>
      have hquiet : (look views p sightings).1 = false := by
        by_contra hseen
        refine hlift ⟨hp, ?_⟩
        simpa [hact] using hseen
      rw [hp]
      dsimp only
      rw [look_state views p sightings hquiet, h]
    | withdrawnRecordMatched =>
      dsimp only
      rw [hp, withdrawnRecordMatched_state, h]
      rfl
    | dialAdmitted nowMs asked =>
      have hspec := dialAdmitted_spec redialWindowMs views p nowMs asked
      rw [h] at hspec
      rw [hp]
      exact (Prod.mk.inj hspec).2
    | dialFailed nowMs =>
      dsimp only
      rw [hp, dialFailed_state, h]
    | sessionOpened => exact absurd ⟨hp, by simp [hact]⟩ hlift
    | sessionClosedHere => exact absurd ⟨hp, by simp [hact]⟩ hlift
    | sessionEnded ended nowMs => exact absurd ⟨hp, by simp [hact]⟩ hlift
    | pairingLeft => exact absurd ⟨hp, by simp [hact]⟩ hlift
  · rw [step_state_frame redialWindowMs views e hp, h]

/-- While withdrawn no dial is let through. -/
theorem not_admitted_of_withdrawn {views : Views PairId} {p : PairId}
    (h : state views p = .withdrawn) (nowMs : Nat) (asked : Bool) :
    (dialAdmitted redialWindowMs views p nowMs asked).1 = false := by
  have hspec := dialAdmitted_spec redialWindowMs views p nowMs asked
  rw [h] at hspec
  exact (Prod.mk.inj hspec).1

/-- **Withdrawal is respected by redialling**, over every run of the tracker. -/
theorem withdrawn_no_dial (events later : List (Event PairId)) (p : PairId)
    (h : state (after redialWindowMs events) p = .withdrawn)
    (hlater : Unlifted redialWindowMs p (after redialWindowMs events) later)
    (nowMs : Nat) (asked : Bool) :
    admits redialWindowMs (events ++ later) p nowMs asked = false := by
  unfold admits after
  rw [run_append]
  apply not_admitted_of_withdrawn
  exact run_along (step_withdrawn redialWindowMs p) h hlater

/-- A withdrawn custodian stays undialed while its old record is still in sight, a dial
    fails, and another pairing's phone appears. -/
theorem withdrawn_no_dial_after_failures :
    admits 60000
      ([⟨[0x77], .look ["refineid-instance"]⟩, ⟨[0x77], .sessionOpened⟩,
        ⟨[0x77], .sessionEnded .withdrawn 1000000⟩] ++
       [⟨[0x77], .look ["refineid-instance"]⟩, ⟨[0x77], .dialFailed 1000001⟩,
        ⟨[0x76], .look ["refineid-fresh"]⟩])
      ([0x77] : List UInt8) 1000002 true = false :=
  withdrawn_no_dial 60000 _ _ _ (by decide) (by unfold Unlifted; decide) _ _

/-! ## §6. The redial window -/

/-- What ends a stretch of redialling for `p`: a new appearance, a consumer's request, or
    a session event. -/
def Breaks (p : PairId) (views : Views PairId) (e : Event PairId) : Prop :=
  e.pairId = p ∧ match e.act with
    | .look sightings => (look views p sightings).1 = true
    | .dialAdmitted _ asked => asked = true
    | .sessionOpened | .sessionClosedHere | .sessionEnded _ _ => True
    | .withdrawnRecordMatched | .dialFailed _ | .pairingLeft => False

instance (p : PairId) (views : Views PairId) (e : Event PairId) : Decidable (Breaks p views e) := by
  unfold Breaks
  cases e.act <;> infer_instance

/-- A stretch of the run with none of these for `p`. -/
def Stretch (p : PairId) (views : Views PairId) (events : List (Event PairId)) : Prop :=
  Along (step redialWindowMs) (fun views e => ¬ Breaks p views e) views events

/-- The window that opened at `openedMs` is still open, or has closed. -/
def InWindow (openedMs : Nat) (s : ViewState) : Prop :=
  s = .connecting (some openedMs) ∨ s = .idle ∨ s = .withdrawn

/-- No dial is due. -/
def Closed (s : ViewState) : Prop := s = .idle ∨ s = .withdrawn

/-- What an event of a stretch can make of the state of `p`: every case but the failed
    dial, which alone can open a window. -/
theorem step_stretch (p : PairId) (views : Views PairId) (e : Event PairId)
    (hbreak : ¬ Breaks p views e) :
    state (step redialWindowMs views e) p = state views p ∨
    Closed (state (step redialWindowMs views e) p) ∨
    ∃ nowMs, e = ⟨p, .dialFailed nowMs⟩ ∧ state views p = .connecting none ∧
      state (step redialWindowMs views e) p = .connecting (some nowMs) := by
  by_cases hp : e.pairId = p
  swap
  · exact .inl (step_state_frame redialWindowMs views e hp)
  obtain ⟨q, act⟩ := e
  obtain rfl : q = p := hp
  cases act with
  | look sightings =>
    refine .inl (look_state views q sightings ?_)
    by_contra hseen
    exact hbreak ⟨rfl, by simpa using hseen⟩
  | withdrawnRecordMatched =>
    dsimp only [step]
    rw [withdrawnRecordMatched_state]
    by_cases hc : state views q = .connected
    · rw [if_pos hc, hc]
      exact .inl rfl
    · rw [if_neg hc]
      exact .inr (.inl (.inr rfl))
  | dialAdmitted nowMs asked =>
    have hasked : asked = false := by
      by_contra hne
      exact hbreak ⟨rfl, by simpa using hne⟩
    have hspec := dialAdmitted_spec redialWindowMs views q nowMs asked
    rw [hasked] at hspec ⊢
    dsimp only [step]
    have hstate := congrArg Prod.snd hspec
    dsimp only at hstate
    rw [hstate]
    cases state views q with
    | idle => exact .inl rfl
    | connected => exact .inl rfl
    | withdrawn => exact .inl rfl
    | connecting windowOpenedMs =>
      cases windowOpenedMs with
      | none => exact .inl rfl
      | some openedMs =>
        dsimp only
        split
        · exact .inl rfl
        · exact .inr (.inl (.inl rfl))
  | dialFailed nowMs =>
    dsimp only [step]
    rw [dialFailed_state]
    cases hstate : state views q with
    | idle => exact .inl rfl
    | connected => exact .inl rfl
    | withdrawn => exact .inl rfl
    | connecting windowOpenedMs =>
      dsimp only
      split
      · exact .inr (.inl (.inl rfl))
      · cases windowOpenedMs with
        | none => exact .inr (.inr ⟨nowMs, rfl, rfl, rfl⟩)
        | some openedMs => exact .inl rfl
  | sessionOpened => exact absurd ⟨rfl, trivial⟩ hbreak
  | sessionClosedHere => exact absurd ⟨rfl, trivial⟩ hbreak
  | sessionEnded ended nowMs => exact absurd ⟨rfl, trivial⟩ hbreak
  | pairingLeft =>
    right
    left
    left
    exact remove_state views q

/-- **The window's start never moves**: an open window stays as it is or closes for good. -/
theorem step_window (p : PairId) (openedMs : Nat) (views : Views PairId) (e : Event PairId)
    (h : InWindow openedMs (state views p)) (hbreak : ¬ Breaks p views e) :
    InWindow openedMs (state (step redialWindowMs views e) p) := by
  rcases step_stretch redialWindowMs p views e hbreak with hsame | hclosed | ⟨nowMs, -, hnone, -⟩
  · rwa [hsame]
  · exact .inr hclosed
  · rw [hnone] at h
    rcases h with h | h | h <;> cases h

theorem step_closed (p : PairId) (views : Views PairId) (e : Event PairId)
    (h : Closed (state views p)) (hbreak : ¬ Breaks p views e) :
    Closed (state (step redialWindowMs views e) p) := by
  rcases step_stretch redialWindowMs p views e hbreak with hsame | hclosed | ⟨nowMs, -, hnone, -⟩
  · rwa [hsame]
  · exact hclosed
  · rw [hnone] at h
    rcases h with h | h <;> cases h

theorem not_admitted_of_closed {views : Views PairId} {p : PairId} (h : Closed (state views p))
    (nowMs : Nat) : (dialAdmitted redialWindowMs views p nowMs false).1 = false := by
  have hspec := dialAdmitted_spec redialWindowMs views p nowMs false
  rcases h with h | h
  · rw [h] at hspec
    exact (Prod.mk.inj hspec).1
  · rw [h] at hspec
    exact (Prod.mk.inj hspec).1

/-- A dial that is let through without a consumer finds a session, the first dial of an
    appearance, or an open window. -/
theorem admitted_cases {views : Views PairId} {p : PairId} {nowMs : Nat}
    (h : (dialAdmitted redialWindowMs views p nowMs false).1 = true) :
    state views p = .connected ∨ state views p = .connecting none ∨
      ∃ openedMs, state views p = .connecting (some openedMs) ∧
        nowMs - openedMs < redialWindowMs := by
  have hspec := congrArg Prod.fst (dialAdmitted_spec redialWindowMs views p nowMs false)
  dsimp only at hspec
  rw [h] at hspec
  cases hstate : state views p with
  | idle => rw [hstate] at hspec; cases hspec
  | withdrawn => rw [hstate] at hspec; cases hspec
  | connected => exact .inl rfl
  | connecting windowOpenedMs =>
    cases windowOpenedMs with
    | none => exact .inr (.inl rfl)
    | some openedMs =>
      refine .inr (.inr ⟨openedMs, rfl, ?_⟩)
      by_contra hpast
      rw [hstate] at hspec
      simp [hpast] at hspec

/-- A check past the window closes it. -/
theorem check_past_closes {views : Views PairId} {p : PairId} {openedMs nowMs : Nat}
    (h : InWindow openedMs (state views p)) (hpast : redialWindowMs ≤ nowMs - openedMs) :
    Closed (state (step redialWindowMs views ⟨p, .dialAdmitted nowMs false⟩) p) := by
  have hspec := congrArg Prod.snd (dialAdmitted_spec redialWindowMs views p nowMs false)
  dsimp only at hspec
  dsimp only [step]
  rw [hspec]
  rcases h with h | h | h
  · rw [h]
    dsimp only
    rw [if_neg (by omega)]
    exact .inl rfl
  · rw [h]
    exact .inl rfl
  · rw [h]
    exact .inr rfl

/-! ## §7. When a window opens -/

/-- The event that opens a window of `p` at `openedMs`: the first failed dial, or a loss. -/
def Opens (p : PairId) (openedMs : Nat) (views : Views PairId) (e : Event PairId) : Prop :=
  (e = ⟨p, .dialFailed openedMs⟩ ∧ state views p = .connecting none) ∨
    e = ⟨p, .sessionEnded .loss openedMs⟩

theorem look_state_cases (views : Views PairId) (p : PairId) (sightings : List String) :
    state (look views p sightings).2 p = state views p ∨
      state (look views p sightings).2 p = .connecting none := by
  cases hseen : (look views p sightings).1 with
  | false => exact .inl (look_state views p sightings hseen)
  | true =>
    unfold look at hseen ⊢
    rw [withView_state, ← getD_new_state]
    dsimp only [withView] at hseen ⊢
    rw [hseen]
    by_cases hc : ((views p).getD .new).state = .connected
    · exact .inl (by simp [hc])
    · exact .inr (by simp [hc])

/-- An open window was open before the event, or the event opened it. -/
theorem step_opens (p : PairId) (openedMs : Nat) (views : Views PairId) (e : Event PairId)
    (h : state (step redialWindowMs views e) p = .connecting (some openedMs)) :
    state views p = .connecting (some openedMs) ∨ Opens p openedMs views e := by
  by_cases hbreak : Breaks p views e
  swap
  · rcases step_stretch redialWindowMs p views e hbreak with hsame | hclosed | ⟨nowMs, he, hnone, hsome⟩
    · exact .inl (hsame ▸ h)
    · rw [h] at hclosed
      rcases hclosed with hc | hc <;> cases hc
    · rw [hsome] at h
      injection h with h
      injection h with h
      exact .inr (.inl ⟨h ▸ he, hnone⟩)
  -- the events that end a stretch: only a loss leaves a window behind
  obtain ⟨q, act⟩ := e
  obtain ⟨rfl, hact⟩ : q = p ∧ _ := hbreak
  cases act with
  | look sightings =>
    rcases look_state_cases views q sightings with hsame | hnone
    · exact .inl (hsame ▸ h)
    · dsimp only [step] at h
      rw [hnone] at h
      cases h
  | dialAdmitted nowMs asked =>
    have hspec := congrArg Prod.snd (dialAdmitted_spec redialWindowMs views q nowMs asked)
    dsimp only at hspec
    dsimp only [step] at h
    obtain rfl : asked = true := hact
    rw [h] at hspec
    cases hstate : state views q with
    | idle => rw [hstate] at hspec; cases hspec
    | withdrawn => rw [hstate] at hspec; cases hspec
    | connected => rw [hstate] at hspec; cases hspec
    | connecting windowOpenedMs =>
      rw [hstate] at hspec
      cases windowOpenedMs with
      | none => cases hspec
      | some startMs =>
        dsimp only at hspec
        split at hspec
        · exact .inl hspec.symm
        · cases hspec
  | sessionOpened =>
    dsimp only [step, sessionOpened] at h
    rw [withView_state] at h
    cases h
  | sessionClosedHere =>
    dsimp only [step, sessionClosedHere] at h
    rw [withView_state] at h
    cases h
  | sessionEnded ended nowMs =>
    dsimp only [step, sessionEnded] at h
    split at h
    · rw [remove_state] at h
      cases h
    · rw [withView_state] at h
      cases ended with
      | loss =>
        injection h with h
        injection h with h
        exact .inr (.inr (by rw [h]))
      | revoked => cases h
      | withdrawn => cases h
      | violation => cases h
  | withdrawnRecordMatched => cases hact
  | dialFailed nowMs => cases hact
  | pairingLeft => cases hact

/-- **Every open window has an opening event**, at the instant the window counts from. -/
theorem window_opened (p : PairId) (openedMs : Nat) (events : List (Event PairId))
    (h : state (after redialWindowMs events) p = .connecting (some openedMs)) :
    ∃ before e later, events = before ++ e :: later ∧
      Opens p openedMs (after redialWindowMs before) e := by
  induction events using List.reverseRecOn with
  | nil => cases h
  | append_singleton events e ih =>
    unfold after at h
    rw [run_concat] at h
    rcases step_opens redialWindowMs p openedMs _ e h with hopen | hopens
    · obtain ⟨before, e', later, rfl, hopens⟩ := ih hopen
      exact ⟨before, e', later ++ [e], by simp, hopens⟩
    · exact ⟨events, e, [], rfl, hopens⟩

/-! ## §8. The law of redialling -/

/-- What a stretch without appearance, consumer or session event is held to, at every
    point of it. -/
structure RedialLaw (p : PairId) (before stretch : List (Event PairId)) : Prop where
  /-- A dial let through finds a session, a first dial that has not failed, or a window. -/
  admitted : ∀ mid rest nowMs, stretch = mid ++ rest →
    admits redialWindowMs (before ++ mid) p nowMs false = true →
      state (after redialWindowMs (before ++ mid)) p = .connected ∨
      state (after redialWindowMs (before ++ mid)) p = .connecting none ∨
      ∃ openedMs, state (after redialWindowMs (before ++ mid)) p = .connecting (some openedMs) ∧
        nowMs < openedMs + redialWindowMs
  /-- The window counts from a first failed dial or a loss. -/
  opened : ∀ mid rest openedMs, stretch = mid ++ rest →
    state (after redialWindowMs (before ++ mid)) p = .connecting (some openedMs) →
      ∃ earlier e later, before ++ mid = earlier ++ e :: later ∧
        Opens p openedMs (after redialWindowMs earlier) e
  /-- Once open it never moves. -/
  kept : ∀ mid later rest openedMs, stretch = mid ++ later ++ rest →
    state (after redialWindowMs (before ++ mid)) p = .connecting (some openedMs) →
      InWindow openedMs (state (after redialWindowMs (before ++ mid ++ later)) p)
  /-- Once open, every dial let through is inside it. -/
  inside : ∀ mid later rest openedMs nowMs, stretch = mid ++ later ++ rest →
    state (after redialWindowMs (before ++ mid)) p = .connecting (some openedMs) →
    admits redialWindowMs (before ++ mid ++ later) p nowMs false = true →
      nowMs < openedMs + redialWindowMs
  /-- After a check past it, no dial is let through. -/
  passed : ∀ mid later last rest openedMs checkedMs nowMs,
    stretch = mid ++ later ++ ⟨p, .dialAdmitted checkedMs false⟩ :: last ++ rest →
    state (after redialWindowMs (before ++ mid)) p = .connecting (some openedMs) →
    redialWindowMs ≤ checkedMs - openedMs →
      admits redialWindowMs (before ++ mid ++ later ++ ⟨p, .dialAdmitted checkedMs false⟩ :: last)
        p nowMs false = false

theorem after_append (events later : List (Event PairId)) :
    after redialWindowMs (events ++ later) =
      run (step redialWindowMs) (after redialWindowMs events) later :=
  run_append _ _ _ _

/-- A part of a stretch, from the state its beginning leaves. -/
theorem Stretch.part {p : PairId} {before stretch mid later rest : List (Event PairId)}
    (h : Stretch redialWindowMs p (after redialWindowMs before) stretch)
    (hsplit : stretch = mid ++ later ++ rest) :
    Stretch redialWindowMs p (after redialWindowMs (before ++ mid)) later := by
  unfold Stretch at h ⊢
  rw [hsplit, along_append, along_append] at h
  rw [after_append]
  exact h.1.2

/-- **The redial window, over every run.** -/
theorem redial_law (p : PairId) (before stretch : List (Event PairId))
    (h : Stretch redialWindowMs p (after redialWindowMs before) stretch) :
    RedialLaw redialWindowMs p before stretch ∧
      ∀ (views : Views PairId) (e : Event PairId) (q : PairId), e.pairId ≠ q →
        step redialWindowMs views e q = views q := by
  -- an open window, carried over the rest of the stretch
  have hkept : ∀ mid later rest openedMs, stretch = mid ++ later ++ rest →
      state (after redialWindowMs (before ++ mid)) p = .connecting (some openedMs) →
      InWindow openedMs (state (after redialWindowMs (before ++ mid ++ later)) p) := by
    intro mid later rest openedMs hsplit hopen
    rw [after_append redialWindowMs (before ++ mid) later]
    exact run_along (P := fun views => InWindow openedMs (state views p))
      (step_window redialWindowMs p openedMs) (.inl hopen)
      (Stretch.part redialWindowMs h hsplit)
  refine ⟨⟨?_, ?_, hkept, ?_, ?_⟩, fun views e q hq => step_frame redialWindowMs views e hq⟩
  · intro mid rest nowMs _ hadmits
    rcases admitted_cases redialWindowMs hadmits with hc | hc | ⟨openedMs, hopen, hlt⟩
    · exact .inl hc
    · exact .inr (.inl hc)
    · exact .inr (.inr ⟨openedMs, hopen, by omega⟩)
  · intro mid rest openedMs _ hopen
    exact window_opened redialWindowMs p openedMs _ hopen
  · intro mid later rest openedMs nowMs hsplit hopen hadmits
    rcases hkept mid later rest openedMs hsplit hopen with hstate | hclosed
    · rcases admitted_cases redialWindowMs hadmits with hc | hc | ⟨startMs, hstart, hlt⟩
      · rw [hstate] at hc
        cases hc
      · rw [hstate] at hc
        cases hc
      · rw [hstate] at hstart
        injection hstart with hstart
        injection hstart with hstart
        omega
    · have hno := not_admitted_of_closed redialWindowMs hclosed nowMs
      unfold admits at hadmits
      rw [hno] at hadmits
      cases hadmits
  · intro mid later last rest openedMs checkedMs nowMs hsplit hopen hpast
    have hwindow := hkept mid later (⟨p, .dialAdmitted checkedMs false⟩ :: last ++ rest) openedMs
      (by rw [hsplit]; simp only [List.append_assoc]) hopen
    have hchecked := check_past_closes redialWindowMs hwindow hpast
    have hlast : Stretch redialWindowMs p
        (after redialWindowMs (before ++ (mid ++ later ++ [⟨p, .dialAdmitted checkedMs false⟩])))
        last :=
      Stretch.part redialWindowMs h (by rw [hsplit]; simp : stretch = _ ++ last ++ rest)
    apply not_admitted_of_closed
    have hstart : after redialWindowMs
        (before ++ (mid ++ later ++ [⟨p, .dialAdmitted checkedMs false⟩])) =
        step redialWindowMs (after redialWindowMs (before ++ mid ++ later))
          ⟨p, .dialAdmitted checkedMs false⟩ := by
      rw [← List.append_assoc, ← List.append_assoc]
      exact run_concat _ _ _ _
    rw [hstart] at hlast
    rw [after_append]
    exact run_along (P := fun views => Closed (state views p)) (step_closed redialWindowMs p)
      hchecked hlast

/-- A lost session: the window counts from the loss, and the first check past it is the
    last dial asked for without a consumer. -/
theorem redial_law_after_loss :
    RedialLaw 60000 ([0x6C] : List UInt8)
        [⟨[0x6C], .sessionOpened⟩, ⟨[0x6C], .sessionEnded .loss 1000000⟩]
        [⟨[0x6C], .dialAdmitted 1059999 false⟩, ⟨[0x6C], .dialFailed 1059999⟩,
         ⟨[0x6C], .dialAdmitted 1060000 false⟩] ∧
      ∀ (views : Views (List UInt8)) (e : Event (List UInt8)) (q : List UInt8), e.pairId ≠ q →
        step 60000 views e q = views q :=
  redial_law 60000 _ _ _ (by unfold Stretch; decide)

/-- The window of the stretch, wherever it opens in it. -/
def HasWindow (p : PairId) (before stretch : List (Event PairId)) (openedMs : Nat) : Prop :=
  ∃ mid rest, stretch = mid ++ rest ∧
    state (after redialWindowMs (before ++ mid)) p = .connecting (some openedMs)

/-- While the first dial of an appearance has not failed no window is open, and dials are
    let through however long that takes: no length of window bounds them all. -/
theorem first_dial_unbounded :
    ¬ ∃ redialWindowMs, ∀ (p : List UInt8) (before stretch mid rest : List (Event (List UInt8)))
      (nowMs : Nat), Stretch redialWindowMs p (after redialWindowMs before) stretch →
      stretch = mid ++ ⟨p, .dialAdmitted nowMs false⟩ :: rest →
      admits redialWindowMs (before ++ mid) p nowMs false = true →
        ∃ openedMs, HasWindow redialWindowMs p before stretch openedMs ∧
          nowMs < openedMs + redialWindowMs := by
  intro hx
  obtain ⟨redialWindowMs, hclaim⟩ := hx
  let before : List (Event (List UInt8)) := [⟨[0x66], .look ["refineid-instance"]⟩]
  let stretch : List (Event (List UInt8)) :=
    [⟨[0x66], .dialAdmitted 0 false⟩, ⟨[0x66], .dialAdmitted (redialWindowMs + 1) false⟩]
  have hconnecting : ∀ mid rest, stretch = mid ++ rest →
      state (after redialWindowMs (before ++ mid)) [0x66] = .connecting none := by
    intro mid rest hsplit
    match mid with
    | [] => rfl
    | [a] =>
      obtain rfl : _ = a := (List.cons.inj hsplit).1
      rfl
    | [a, b] =>
      obtain ⟨rfl, htail⟩ := List.cons.inj hsplit
      obtain rfl : _ = b := (List.cons.inj htail).1
      rfl
    | a :: b :: c :: tail =>
      have hlen := congrArg List.length hsplit
      simp [stretch] at hlen
  have hstretch : Stretch redialWindowMs [0x66] (after redialWindowMs before) stretch := by
    refine ⟨?_, ?_, trivial⟩
    · intro hx
      obtain ⟨-, hasked⟩ := hx
      cases hasked
    · intro hx
      obtain ⟨-, hasked⟩ := hx
      cases hasked
  have hadmits : admits redialWindowMs
      (before ++ [⟨[0x66], .dialAdmitted 0 false⟩]) [0x66] (redialWindowMs + 1) false = true := rfl
  obtain ⟨openedMs, ⟨mid, rest, hsplit, hopen⟩, -⟩ :=
    hclaim [0x66] before stretch [⟨[0x66], .dialAdmitted 0 false⟩] [] (redialWindowMs + 1)
      hstretch rfl hadmits
  rw [hconnecting mid rest hsplit] at hopen
  cases hopen

end RefineId.View
