/-
  RefineId.PinInfoObjects — what is read from a PIN container, and from where.
  ════════════════════════════════════════════════════════════════════════════

  `PinInfoResponse` of `crates/refineid-lib-core/src/auth/commands.rs`.  The extractors slide a
  window over the body and take the first place where the octets of a tag and a length stand;
  they do not walk the objects.  Such octets also stand inside other objects' values and
  across two objects.

    Main results:
    • `DataObject.window_encode`        : what a window at the start of an object reads.
    • `DataObject.findWindow_eq_actual` : when the first window is the object's own.
    • `pinInfo_exact`                   : the three extractors.
-/
import RefineId.BerObjects
import RefineId.CardPin

namespace RefineId

namespace CardPin

open Lib

/-! ## §1. The body -/

/-- What stands in front of a flat sequence: nothing, or the head of the outer template. -/
def IsHead (head : Bytes) (objects : List BerObject) : Prop :=
  head = [] ∨ ∃ lengthOctets, head = 0xA0 :: lengthOctets ∧
    IsLength lengthOctets (encodeAll objects).length

/-! ## §2. The objects the extractors look for -/

/-- A data object with a tag of two octets, a length of one, and what its value says. -/
structure DataObject (α : Type) where
  tagHi : UInt8
  tagLo : UInt8
  length : UInt8
  read : Bytes → Option α
  tagHi_multi : tagHi &&& 0x1F = 0x1F
  tagLo_last : tagLo < 0x80
  length_short : length < 0x80

namespace DataObject

variable {α : Type} (d : DataObject α)

/-- One window, at the front of what is left of the body. -/
def window (suffix : Bytes) : Option α :=
  if suffix.take 3 = [d.tagHi, d.tagLo, d.length] ∧ 3 + d.length.toNat ≤ suffix.length then
    d.read ((suffix.drop 3).take d.length.toNat)
  else none

/-- What an object of the sequence says, when it is one of these. -/
def ofObject (object : BerObject) : Option α :=
  if object.identifier = [d.tagHi, d.tagLo] ∧ object.value.length = d.length.toNat then
    d.read object.value
  else none

/-- What the objects of a sequence say: the first that says something. -/
def actual (objects : List BerObject) : Option α := objects.findSome? d.ofObject

end DataObject

/-- `DF 2F` of length 1. -/
def changedFlag : DataObject Bool where
  tagHi := 0xDF
  tagLo := 0x2F
  length := 1
  read
    | value :: _ => some (value == 1)
    | _ => none
  tagHi_multi := by decide
  tagLo_last := by decide
  length_short := by decide

/-- `DF 21` of length 4. -/
def tryCounter : DataObject Nat where
  tagHi := 0xDF
  tagLo := 0x21
  length := 4
  read
    | tries :: _ => if tries.toNat ≤ 0x0F then some tries.toNat else none
    | _ => none
  tagHi_multi := by decide
  tagLo_last := by decide
  length_short := by decide

/-- `DF 3F` of length 20. -/
def policyLengths {R : Type} (L : LengthRanges R) : DataObject R where
  tagHi := 0xDF
  tagLo := 0x3F
  length := 20
  read
    | _ :: min :: max :: _ =>
      if 4 ≤ min.toNat ∧ min.toNat ≤ 64 ∧ 4 ≤ max.toNat ∧ max.toNat ≤ 64 then
        L.new min.toNat max.toNat
      else none
    | _ => none
  tagHi_multi := by decide
  tagLo_last := by decide
  length_short := by decide

/-- A window that reads nothing but what stands behind the object's first three octets. -/
theorem DataObject.eq_window {α : Type} (d : DataObject α) {f : Bytes → Option α}
    (hhead : ∀ rest, f (d.tagHi :: d.tagLo :: d.length :: rest) =
      if d.length.toNat ≤ rest.length then d.read (rest.take d.length.toNat) else none)
    (hother : ∀ suffix, suffix.take 3 ≠ [d.tagHi, d.tagLo, d.length] → f suffix = none) :
    f = d.window := by
  funext suffix
  unfold window
  by_cases h : suffix.take 3 = [d.tagHi, d.tagLo, d.length]
  · obtain ⟨rest, rfl⟩ : ∃ rest, suffix = d.tagHi :: d.tagLo :: d.length :: rest := by
      refine ⟨suffix.drop 3, ?_⟩
      conv_lhs => rw [← List.take_append_drop 3 suffix, h]
      rfl
    have hlen : 3 + d.length.toNat ≤ (d.tagHi :: d.tagLo :: d.length :: rest).length ↔
        d.length.toNat ≤ rest.length := by
      simp only [List.length_cons]
      omega
    rw [hhead]
    simp only [h, hlen, true_and]
    rfl
  · rw [if_neg fun hc => h hc.1]
    exact hother suffix h

theorem changedFlagFromResponseBody_eq :
    changedFlagFromResponseBody = findWindow changedFlag.window := by
  unfold changedFlagFromResponseBody
  refine congrArg findWindow (changedFlag.eq_window ?_ ?_)
  · intro rest
    cases rest <;> simp [changedFlag]
  · intro suffix h
    split
    · exact absurd rfl h
    · rfl

theorem tryCounterFromResponseBody_eq :
    tryCounterFromResponseBody = findWindow tryCounter.window := by
  unfold tryCounterFromResponseBody
  refine congrArg findWindow (tryCounter.eq_window ?_ ?_)
  · intro rest
    rcases rest with _ | ⟨tries, _ | ⟨x, _ | ⟨y, _ | ⟨z, rest⟩⟩⟩⟩ <;> simp [tryCounter]
  · intro suffix h
    split
    · exact absurd rfl h
    · rfl

theorem policyLengthsFromResponseBody_eq {R : Type} (L : LengthRanges R) :
    policyLengthsFromResponseBody L = findWindow (policyLengths L).window := by
  unfold policyLengthsFromResponseBody
  refine congrArg findWindow ((policyLengths L).eq_window ?_ ?_)
  · intro rest
    rcases rest with _ | ⟨tries, _ | ⟨min, _ | ⟨max, rest⟩⟩⟩
    · simp [policyLengths]
    · simp [policyLengths]
    · simp [policyLengths]
    · have hlen : 20 ≤ (tries :: min :: max :: rest).length ↔ 17 ≤ rest.length := by
        simp only [List.length_cons]
        omega
      show _ = if 20 ≤ (tries :: min :: max :: rest).length then _ else none
      by_cases hroom : 17 ≤ rest.length
      · rw [if_pos (hlen.mpr hroom)]
        simp [policyLengths, hroom]
      · rw [if_neg (mt hlen.mp hroom)]
        simp [policyLengths, hroom]
  · intro suffix h
    split
    · exact absurd rfl h
    · rfl

/-! ## §3. The first window -/

section
variable {α : Type} {f : Bytes → Option α}

theorem findWindow_eq_none_iff (hnil : f [] = none) (body : Bytes) :
    findWindow f body = none ↔ ∀ offset, f (body.drop offset) = none := by
  induction body with
  | nil => simp [findWindow, hnil]
  | cons b bs ih =>
    constructor
    · intro h offset
      cases hb : f (b :: bs) with
      | some a => simp [findWindow, hb] at h
      | none =>
        rw [findWindow, hb] at h
        cases offset with
        | zero => exact hb
        | succ offset => exact ih.mp h offset
    · intro h
      have hb : f (b :: bs) = none := h 0
      rw [findWindow, hb]
      exact ih.mpr fun offset => h (offset + 1)

/-- The body reads `v` at `offset`, and nothing in front of it. -/
def FirstPlace (f : Bytes → Option α) (body : Bytes) (offset : Nat) (v : α) : Prop :=
  f (body.drop offset) = some v ∧ ∀ o < offset, f (body.drop o) = none

theorem findWindow_eq_some_iff (hnil : f [] = none) (body : Bytes) (v : α) :
    findWindow f body = some v ↔ ∃ offset, FirstPlace f body offset v := by
  induction body with
  | nil => simp [findWindow, FirstPlace, hnil]
  | cons b bs ih =>
    cases hb : f (b :: bs) with
    | some a =>
      rw [findWindow, hb]
      constructor
      · intro h
        exact ⟨0, by rw [List.drop_zero, hb]; exact h, fun o ho => absurd ho (by omega)⟩
      · rintro ⟨_ | offset, hplace, hbefore⟩
        · rwa [List.drop_zero, hb] at hplace
        · have hzero := hbefore 0 (by omega)
          rw [List.drop_zero, hb] at hzero
          exact absurd hzero (by simp)
    | none =>
      rw [findWindow, hb]
      refine ih.trans ⟨?_, ?_⟩
      · rintro ⟨offset, hplace, hbefore⟩
        refine ⟨offset + 1, hplace, ?_⟩
        intro o ho
        cases o with
        | zero => exact hb
        | succ o => exact hbefore o (by omega)
      · rintro ⟨_ | offset, hplace, hbefore⟩
        · rw [List.drop_zero, hb] at hplace
          exact absurd hplace (by simp)
        · exact ⟨offset, hplace, fun o ho => hbefore (o + 1) (by omega)⟩

end

/-! ## §4. Where objects begin -/

/-- An object of the sequence begins at `offset`. -/
def BeginsAt (head : Bytes) (objects : List BerObject) (offset : Nat) : Prop :=
  ∃ before object after, objects = before ++ object :: after ∧
    offset = head.length + (encodeAll before).length

theorem drop_encodeAll (head : Bytes) (before after : List BerObject) (object : BerObject) :
    (head ++ encodeAll (before ++ object :: after)).drop
        (head.length + (encodeAll before).length) = object.encode ++ encodeAll after := by
  have hall : head ++ encodeAll (before ++ object :: after) =
      (head ++ encodeAll before) ++ (object.encode ++ encodeAll after) := by
    simp [encodeAll]
  rw [hall, ← List.length_append, List.drop_left]

namespace DataObject

variable {α : Type} (d : DataObject α)

theorem window_nil : d.window [] = none := by
  unfold window
  simp

/-- **A window at the start of an object** reads the object, and its length is one octet. -/
theorem window_encode {object : BerObject} {rest : Bytes} {v : α}
    (h : d.window (object.encode ++ rest) = some v) :
    d.ofObject object = some v ∧ object.lengthOctets = [d.length] := by
  unfold window at h
  split at h
  case isFalse => exact absurd h (by simp)
  next hc =>
  obtain ⟨hhead, -⟩ := hc
  obtain ⟨identifier, lengthOctets, value, hidentifier, hlength⟩ := object
  simp only [BerObject.encode, List.append_assoc] at h hhead
  -- the identifier is the tag: one octet has other number bits, a third one a high bit before it
  have htag : identifier = [d.tagHi, d.tagLo] := by
    obtain ⟨b, rfl, hb⟩ | ⟨b, last, more, rfl, -, hmore, -⟩ := hidentifier
    · simp only [List.singleton_append, List.take_succ_cons, List.cons.injEq] at hhead
      exact absurd (hhead.1 ▸ d.tagHi_multi) hb
    · cases more with
      | nil =>
        simp only [List.nil_append, List.cons_append, List.take_succ_cons, List.cons.injEq] at hhead
        rw [hhead.1, hhead.2.1]
        rfl
      | cons c more =>
        simp only [List.cons_append, List.take_succ_cons, List.cons.injEq] at hhead
        have hhigh := hmore c List.mem_cons_self
        rw [hhead.2.1] at hhigh
        exact absurd hhigh (UInt8.not_le.mpr d.tagLo_last)
  subst htag
  have hlengthOctets : lengthOctets = [d.length] ∧ value.length = d.length.toNat := by
    obtain ⟨b, rfl, -, hvalue⟩ | ⟨b, more, rfl, hlong, -⟩ := hlength
    · simp only [List.cons_append, List.nil_append, List.take_succ_cons, List.cons.injEq,
        true_and, and_true, List.take_zero] at hhead
      rw [← hvalue, hhead]
      exact ⟨rfl, rfl⟩
    · simp only [List.cons_append, List.nil_append, List.take_succ_cons, List.cons.injEq,
        true_and, and_true, List.take_zero] at hhead
      rw [hhead] at hlong
      exact absurd hlong (UInt8.lt_asymm d.length_short)
  obtain ⟨rfl, hvalue⟩ := hlengthOctets
  refine ⟨?_, rfl⟩
  rw [ofObject, if_pos ⟨rfl, hvalue⟩, ← h]
  simp only [List.cons_append, List.nil_append, List.drop_succ_cons, List.drop_zero, ← hvalue,
    List.take_left]

/-- An object with a length of one octet is read at its start. -/
theorem window_of_ofObject {object : BerObject} {v : α} (h : d.ofObject object = some v)
    (hshort : object.lengthOctets = [d.length]) (rest : Bytes) :
    d.window (object.encode ++ rest) = some v := by
  unfold ofObject at h
  split at h
  case isFalse => exact absurd h (by simp)
  next hc =>
  obtain ⟨htag, hvalue⟩ := hc
  have hencode : object.encode ++ rest =
      d.tagHi :: d.tagLo :: d.length :: (object.value ++ rest) := by
    rw [BerObject.encode, htag, hshort]
    rfl
  have hlen : 3 + d.length.toNat ≤
      (d.tagHi :: d.tagLo :: d.length :: (object.value ++ rest)).length := by
    simp only [List.length_cons, List.length_append, hvalue]
    omega
  rw [window, hencode, if_pos ⟨rfl, hlen⟩, ← h]
  simp only [List.drop_succ_cons, List.drop_zero, ← hvalue, List.take_left]

/-! ## §5. When the first window is the object's own -/

/-- The body is not mistaken: with no such object, the pattern stands nowhere that no object
    begins; with one whose length is one octet, the first place before it, if any, reads the
    same; with one whose length is longer, the pattern stands somewhere and first reads the
    same. -/
inductive Unmistaken (head : Bytes) (objects : List BerObject) : Prop
  | absent (hnone : ∀ object ∈ objects, d.ofObject object = none)
      (hclear : ∀ offset, ¬ BeginsAt head objects offset →
        d.window ((head ++ encodeAll objects).drop offset) = none)
  | short {before after : List BerObject} {object : BerObject} {v : α}
      (hobjects : objects = before ++ object :: after)
      (hbefore : ∀ other ∈ before, d.ofObject other = none) (hvalue : d.ofObject object = some v)
      (hshort : object.lengthOctets = [d.length])
      (hclear : ∀ offset u, offset < head.length + (encodeAll before).length →
        FirstPlace d.window (head ++ encodeAll objects) offset u → u = v)
  | long {before after : List BerObject} {object : BerObject} {v : α}
      (hobjects : objects = before ++ object :: after)
      (hbefore : ∀ other ∈ before, d.ofObject other = none) (hvalue : d.ofObject object = some v)
      (hlong : object.lengthOctets ≠ [d.length])
      (hplace : ∃ offset, FirstPlace d.window (head ++ encodeAll objects) offset v)

variable {head : Bytes} {objects : List BerObject}

/-- **The first window says what the objects say** exactly when the body is not mistaken. -/
theorem findWindow_eq_actual : findWindow d.window (head ++ encodeAll objects) =
    d.actual objects ↔ d.Unmistaken head objects := by
  constructor
  · intro h
    cases hactual : d.actual objects with
    | none =>
      rw [hactual] at h
      refine .absent (List.findSome?_eq_none_iff.mp hactual) fun offset _ => ?_
      exact (findWindow_eq_none_iff d.window_nil _).mp h offset
    | some v =>
      rw [hactual] at h
      obtain ⟨before, object, after, hobjects, hvalue, hbefore⟩ :=
        List.findSome?_eq_some_iff.mp hactual
      by_cases hshort : object.lengthOctets = [d.length]
      · refine .short hobjects hbefore hvalue hshort fun offset u _ hplace => ?_
        have hu := (findWindow_eq_some_iff d.window_nil _ u).mpr ⟨offset, hplace⟩
        rw [h] at hu
        exact (Option.some.inj hu).symm
      · exact .long hobjects hbefore hvalue hshort
          ((findWindow_eq_some_iff d.window_nil _ v).mp h)
  · intro h
    cases h with
    | absent hnone hclear =>
      rw [actual, List.findSome?_eq_none_iff.mpr hnone,
        findWindow_eq_none_iff d.window_nil]
      intro offset
      by_cases hbegins : BeginsAt head objects offset
      · obtain ⟨before, object, after, rfl, rfl⟩ := hbegins
        rw [drop_encodeAll, Option.eq_none_iff_forall_ne_some]
        intro v hv
        have hsome := (d.window_encode hv).1
        rw [hnone object (by simp)] at hsome
        exact absurd hsome (by simp)
      · exact hclear offset hbegins
    | @short before after object v hobjects hbefore hvalue hshort hclear =>
      subst hobjects
      rw [actual, List.findSome?_eq_some_iff.mpr ⟨before, object, after, rfl, hvalue, hbefore⟩]
      have hown : d.window ((head ++ encodeAll (before ++ object :: after)).drop
          (head.length + (encodeAll before).length)) = some v := by
        rw [drop_encodeAll]
        exact d.window_of_ofObject hvalue hshort _
      cases hfound : findWindow d.window (head ++ encodeAll (before ++ object :: after)) with
      | none =>
        have hnone := (findWindow_eq_none_iff d.window_nil _).mp hfound
          (head.length + (encodeAll before).length)
        rw [hown] at hnone
        exact absurd hnone (by simp)
      | some u =>
        obtain ⟨offset, hplace⟩ := (findWindow_eq_some_iff d.window_nil _ u).mp hfound
        obtain hlt | heq | hgt :=
          Nat.lt_trichotomy offset (head.length + (encodeAll before).length)
        · rw [hclear offset u hlt hplace]
        · have hsame := hplace.1
          rw [heq, hown] at hsame
          exact hsame.symm
        · have hnone := hplace.2 _ hgt
          rw [hown] at hnone
          exact absurd hnone (by simp)
    | @long before after object v hobjects hbefore hvalue _ hplace =>
      rw [actual, List.findSome?_eq_some_iff.mpr
        ⟨before, object, after, hobjects, hvalue, hbefore⟩]
      exact (findWindow_eq_some_iff d.window_nil _ v).mpr hplace

end DataObject

/-- **What `PinInfoResponse` extracts** from a flat sequence of objects, with nothing or the head
    of the outer template in front of it, is what the objects say, exactly when the body is not
    mistaken. -/
theorem pinInfo_exact {R : Type} (L : LengthRanges R) (head : Bytes) (objects : List BerObject) :
    (changedFlagFromResponseBody (head ++ encodeAll objects) = changedFlag.actual objects ↔
      changedFlag.Unmistaken head objects) ∧
    (tryCounterFromResponseBody (head ++ encodeAll objects) = tryCounter.actual objects ↔
      tryCounter.Unmistaken head objects) ∧
    (policyLengthsFromResponseBody L (head ++ encodeAll objects) =
        (policyLengths L).actual objects ↔ (policyLengths L).Unmistaken head objects) := by
  rw [changedFlagFromResponseBody_eq, tryCounterFromResponseBody_eq,
    policyLengthsFromResponseBody_eq]
  exact ⟨changedFlag.findWindow_eq_actual, tryCounter.findWindow_eq_actual,
    (policyLengths L).findWindow_eq_actual⟩

/-- An object of seven octets that look like a try counter of 15. -/
def labelObject : BerObject where
  identifier := [0x80]
  lengthOctets := [0x07]
  value := [0xDF, 0x21, 0x04, 0x0F, 0xFF, 0x00, 0x00]
  isIdentifier := .inl ⟨0x80, rfl, by decide⟩
  isLength := .inl ⟨0x07, rfl, by decide, rfl⟩

/-- The object of an exhausted try counter. -/
def exhaustedObject : BerObject where
  identifier := [0xDF, 0x21]
  lengthOctets := [0x04]
  value := [0x00, 0xFF, 0x00, 0x00]
  isIdentifier := .inr ⟨0xDF, 0x21, [], rfl, by decide, by simp, by decide⟩
  isLength := .inl ⟨0x04, rfl, by decide, rfl⟩

/-- **An exhausted counter is read as 15 tries** from a well-formed template. -/
theorem tryCounter_mistaken :
    IsHead [0xA0, 0x10] [labelObject, exhaustedObject] ∧
      tryCounter.actual [labelObject, exhaustedObject] = some 0 ∧
      tryCounterFromResponseBody ([0xA0, 0x10] ++ encodeAll [labelObject, exhaustedObject]) =
        some 15 := by
  exact ⟨.inr ⟨[0x10], rfl, .inl ⟨0x10, rfl, by decide, rfl⟩⟩, by decide, by decide⟩

end CardPin

end RefineId
