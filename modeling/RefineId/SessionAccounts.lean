/-
  RefineId.SessionAccounts — what the PKCS#11 sessions were promised and what they got.
  ════════════════════════════════════════════════════════════════════════════

  A ledger beside the module's state keeps for every session what its searches found and
  gave out, and which signatures it took up and passed to the card.  The calls of all
  sessions may come in any order, between `C_Initialize` and `C_Finalize`.

  Main results:
    • `accounted_step`          : what one call keeps of the accounts.
    • `search_complete`         : a search that comes short has given all that it found.
    • `requests_matched`        : every request to the card has a `C_SignInit` of its own.
-/
import RefineId.SessionOperations

namespace RefineId.SessionOperations

open Lib Slots

/-! ## §1. The ledger -/

/-- What the last search of a session found and what has been given of it since; the
    mechanisms its `C_SignInit`s took up, and those of its requests to the card. -/
structure Ledger where
  searched : Nat → List Nat
  given : Nat → List Nat
  inits : Nat → List Mechanism
  sent : Nat → List Mechanism

/-- Enter what a call on a session came to. -/
def Ledger.enter (l : Ledger) (handle : Nat) : Reply → Ledger
  | .searching found =>
    { l with
      searched := Function.update l.searched handle found
      given := Function.update l.given handle [] }
  | .handles batch =>
    { l with given := Function.update l.given handle (l.given handle ++ batch) }
  | .signing mechanism =>
    { l with inits := Function.update l.inits handle (l.inits handle ++ [mechanism]) }
  | .sent request =>
    { l with sent := Function.update l.sent handle (l.sent handle ++ [request.mechanism]) }
  | _ => l

/-- The module beside its ledger. -/
structure World where
  state : State
  ledger : Ledger

/-- Nothing has happened. -/
def World.initial : World := ⟨.initial, ⟨fun _ => [], fun _ => [], fun _ => [], fun _ => []⟩⟩

section
variable (maxId : Nat)

/-- One call, entered. -/
def World.step (w : World) (c : Call) : World :=
  ⟨(call maxId w.state c).2, w.ledger.enter (c.session w.state) (call maxId w.state c).1⟩

/-- The world after a run. -/
def after (calls : List Call) : World := run (World.step maxId) .initial calls

/-- **The accounts of a session.**  What a search found is what has been given, followed by
    what remains; the requests to the card, with the signature under way, are accepted
    `C_SignInit`s, in order and each at most once. -/
structure Ledger.Settles (l : Ledger) (handle : Nat) (o : Operations) : Prop where
  search : ∀ remaining, o.find = some remaining → l.searched handle = l.given handle ++ remaining
  requests : (l.sent handle ++ o.sign.toList).Sublist (l.inits handle)

variable {maxId}

/-! ## §2. The accounts over runs -/

/-- What is entered for one session leaves the accounts of the others. -/
theorem Ledger.Settles.enter_other {l : Ledger} {handle other : Nat} {o : Operations}
    (h : l.Settles other o) (hne : other ≠ handle) (reply : Reply) :
    (l.enter handle reply).Settles other o := by
  have hkept : ∀ {α : Type} (f : Nat → α) (a : α), Function.update f handle a other = f other :=
    fun f a => Function.update_of_ne hne a f
  cases reply with
  | searching found =>
    refine ⟨?_, h.requests⟩
    intro remaining hfind
    show Function.update l.searched handle found other =
      Function.update l.given handle [] other ++ remaining
    rw [hkept, hkept]
    exact h.search remaining hfind
  | handles batch =>
    refine ⟨?_, h.requests⟩
    intro remaining hfind
    show l.searched other =
      Function.update l.given handle (l.given handle ++ batch) other ++ remaining
    rw [hkept]
    exact h.search remaining hfind
  | signing mechanism =>
    refine ⟨h.search, ?_⟩
    show (l.sent other ++ o.sign.toList).Sublist
      (Function.update l.inits handle (l.inits handle ++ [mechanism]) other)
    rw [hkept]
    exact h.requests
  | sent request =>
    refine ⟨h.search, ?_⟩
    show (Function.update l.sent handle (l.sent handle ++ [request.mechanism]) other ++
      o.sign.toList).Sublist (l.inits other)
    rw [hkept]
    exact h.requests
  | refused rv => exact h
  | done => exact h
  | length needed => exact h
  | bufferTooSmall needed => exact h
  | signature bytes => exact h

theorem enter_quiet (l : Ledger) (handle : Nat) {reply : Reply} (h : reply.isQuiet = true) :
    l.enter handle reply = l := by
  cases reply <;> first | rfl | cases h

/-- **One advance** keeps the accounts of its session. -/
theorem Ledger.Settles.enter_self {l : Ledger} {handle : Nat} {o o' : Operations} {reply : Reply}
    (h : l.Settles handle o) (hadvances : Advances o reply o') :
    (l.enter handle reply).Settles handle o' := by
  cases hadvances with
  | searching found =>
    refine ⟨?_, h.requests⟩
    intro remaining hfind
    show Function.update l.searched handle found handle =
      Function.update l.given handle [] handle ++ remaining
    rw [Function.update_self, Function.update_self, List.nil_append]
    exact Option.some.inj hfind
  | handles batch rest hfind =>
    refine ⟨?_, h.requests⟩
    intro remaining hrest
    show l.searched handle =
      Function.update l.given handle (l.given handle ++ batch) handle ++ remaining
    rw [Function.update_self, List.append_assoc, ← Option.some.inj hrest]
    exact h.search _ hfind
  | signing mechanism hidle =>
    refine ⟨h.search, ?_⟩
    have hsent := h.requests
    rw [hidle, Option.toList_none, List.append_nil] at hsent
    show (l.sent handle ++ [mechanism]).Sublist
      (Function.update l.inits handle (l.inits handle ++ [mechanism]) handle)
    rw [Function.update_self]
    exact hsent.append (List.Sublist.refl [mechanism])
  | sent request hactive =>
    refine ⟨h.search, ?_⟩
    have hsent := h.requests
    rw [hactive, Option.toList_some] at hsent
    show (Function.update l.sent handle (l.sent handle ++ [request.mechanism]) handle ++
      []).Sublist (l.inits handle)
    rwa [Function.update_self, List.append_nil]
  | quiet _ _ hreply hfind hsign =>
    rw [enter_quiet l handle hreply]
    refine ⟨?_, ?_⟩
    · intro remaining hremaining
      obtain hsame | hnone := hfind
      · exact h.search remaining (hsame.symm.trans hremaining)
      · rw [hnone] at hremaining
        cases hremaining
    · obtain hsame | hnone := hsign
      · rw [hsame]
        exact h.requests
      · rw [hnone, Option.toList_none, List.append_nil]
        exact (List.sublist_append_left _ _).trans h.requests

/-- Every session's accounts. -/
def World.Accounted (w : World) : Prop :=
  ∀ handle, w.ledger.Settles handle (w.state.operations handle)

/-- **One call** keeps the accounts. -/
theorem accounted_step {w : World} (h : w.Accounted) (c : Call) : (w.step maxId c).Accounted := by
  obtain ⟨o', hoperations, hadvances⟩ := @call_advances maxId w.state c
  intro handle
  show (w.ledger.enter (c.session w.state) (call maxId w.state c).1).Settles handle
    ((call maxId w.state c).2.operations handle)
  rw [hoperations]
  by_cases hself : handle = c.session w.state
  · subst hself
    rw [Function.update_self]
    exact (h _).enter_self hadvances
  · rw [Function.update_of_ne hself]
    exact (h handle).enter_other hself _

theorem accounted_run (calls : List Call) : (after maxId calls).Accounted := by
  refine run_invariant (P := World.Accounted) (fun w c h => accounted_step h c) ?_ calls
  intro handle
  refine ⟨?_, List.Sublist.refl []⟩
  intro remaining hfind
  cases hfind

/-! ## §3. What the caller gets -/

/-- **A search is complete** when a batch comes short: all that it found has been given, in
    order and each handle once.  The run lies between `C_Initialize` and `C_Finalize`. -/
theorem search_complete (calls : List Call) (handle maxCount : Nat) {batch : List Nat}
    (hreply : (call maxId (after maxId calls).state (.findObjects handle maxCount)).1 =
      .handles batch) (hshort : batch.length < maxCount) :
    (after maxId (calls ++ [.findObjects handle maxCount])).ledger.given handle =
      (after maxId (calls ++ [.findObjects handle maxCount])).ledger.searched handle := by
  have hsettles := (@accounted_run maxId calls handle).search batch
    (findObjects_short hreply hshort)
  rw [after, run_concat]
  show ((after maxId calls).ledger.enter handle
      (call maxId (after maxId calls).state (.findObjects handle maxCount)).1).given handle =
    ((after maxId calls).ledger.enter handle
      (call maxId (after maxId calls).state (.findObjects handle maxCount)).1).searched handle
  rw [hreply, Ledger.enter, hsettles]
  show Function.update _ handle _ handle = _
  rw [Function.update_self]

/-- A token with one CA certificate. -/
def sampleToken : TokenObjects where
  mechanism := .ecdsa
  caObjects := 1
  attributeOf _ _ := none
  verifySignature _ _ _ := none

/-- A card is put in, and a session is opened on its slot. -/
def sampleOpening : List Call :=
  [.table (.refreshLocal (some [⟨"Reader", true, .present, some sampleToken, ⟨none, none⟩⟩])),
    .table (.openSession 1 4)]

/-- A search for everything, read in batches of three. -/
theorem two_batches_complete :
    (after 4294967295 (sampleOpening ++ [.findObjectsInit 1 (some []) (.error .deviceError),
        .findObjects 1 3] ++ [.findObjects 1 3])).ledger.given 1 =
      (after 4294967295 (sampleOpening ++ [.findObjectsInit 1 (some []) (.error .deviceError),
        .findObjects 1 3] ++ [.findObjects 1 3])).ledger.searched 1 :=
  search_complete _ 1 3 (show _ = Reply.handles [4] from rfl) (by decide)

/-- **The card signs what was asked for.**  In a run between `C_Initialize` and `C_Finalize`
    the requests of a session to the card, with the signature under way, are accepted
    `C_SignInit`s of that session, in order, each at most once and with its mechanism. -/
theorem requests_matched (calls : List Call) (handle : Nat) :
    ((after maxId calls).ledger.sent handle ++
      ((after maxId calls).state.operations handle).sign.toList).Sublist
      ((after maxId calls).ledger.inits handle) :=
  (accounted_run calls handle).requests

end

end RefineId.SessionOperations
