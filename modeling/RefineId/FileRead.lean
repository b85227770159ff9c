/-
  RefineId.FileRead — reading a file of the card in chunks.
  ════════════════════════════════════════════════════════════════════════════

  `crates/refineid-lib-core/src/pkcs15.rs`: `read_binary_to_end` and `read_binary_der_object`.
  The card answers commands as it likes; a card that holds a file answers READ BINARY with the
  file's octets.  Every offset is below the cap of 0x4000 and every length at most 128, so the
  conversions to `u16` and `u8` and the checked additions of the source do not fail.

  Without an expected size the first reader stops at the cap and returns what it has: a longer
  file comes back cut.  The second reader takes every first octet for a whole tag.

  Main results:
    • `readBinaryToEnd_honest`      : what is returned of a file.
    • `readBinaryDerObject_honest`  : which object is returned.
    • `reads_bounded`               : both end within 129 turns, whatever the card does.
    • `fileReads_exact`             : when they are complete or refused.
-/
import RefineId.BerObjects
import RefineId.Transport
import RefineId.Lib.Loop

namespace RefineId

open Ber Lib

namespace FileRead

/-! ## §1. The card -/

/-- `READ_CHUNK`. -/
def readChunk : Nat := 0x80

/-- `MAX_CERT_BYTES`. -/
def maxCertBytes : Nat := 0x4000

/-- `ReadBinaryByOffset`. -/
structure ReadBinaryByOffset where
  offset : Nat
  le : Nat

/-- `ReadBinaryByOffset::into_apdu`. -/
def ReadBinaryByOffset.intoApdu (command : ReadBinaryByOffset) : Bytes :=
  [0x00, 0xB0, UInt8.ofNat (command.offset / 256) &&& 0x7F, UInt8.ofNat command.offset,
    UInt8.ofNat command.le]

/-- `StatusWord::EndOfFile`. -/
def eof (r : ResponseApdu) : Bool := r.sw = 0x6282

/-- `Pkcs15Error`, as far as the two readers return it. -/
inductive Pkcs15Error (T : Type) where
  | transport (e : T)
  | sw (sw : Nat)
  | empty
  | tooLarge
  | invalidData (what : String)
  deriving Repr, DecidableEq

/-- `transmit`: the card and what is between, with the state `σ` of both. -/
abbrev Card (σ T : Type) := Bytes → σ → Except T ResponseApdu × σ

variable {σ T : Type} (card : Card σ T)

/-! ## §2. The readers -/

/-- What a loop has read. -/
structure ReadState (σ : Type) where
  collected : Bytes := []
  offset : Nat := 0
  /-- The declared length of `read_binary_der_object`. -/
  total : Option Nat := none
  world : σ

/-- The checks after the loop of `read_binary_to_end`. -/
def finish (collected : Bytes) : Except (Pkcs15Error T) Bytes :=
  if collected.isEmpty then .error .empty
  else if maxCertBytes < collected.length then .error .tooLarge
  else .ok collected

/-- One turn of `read_binary_to_end`. -/
def toEndTurn (cap : Nat) (s : ReadState σ) :
    Turn (ReadState σ) (Except (Pkcs15Error T) Bytes × σ) :=
  if s.offset < cap then
    let want := min (cap - s.offset) readChunk
    match card (ReadBinaryByOffset.mk s.offset want).intoApdu s.world with
    | (.error e, w) => .done (.error (.transport e), w)
    | (.ok r, w) =>
      if !r.isOk && !eof r then .done (.error (.sw r.sw), w)
      else
        let collected := s.collected ++ r.body
        if r.body.length = 0 ∨ r.body.length < want ∨ eof r then .done (finish collected, w)
        else .next { s with collected, offset := s.offset + r.body.length, world := w }
  else .done (finish s.collected, s.world)

/-- The most turns a loop can take. -/
def maxTurns : Nat := maxCertBytes / readChunk + 1

/-- `read_binary_to_end`. -/
def readBinaryToEnd (expectedSize : Option Nat) (s : σ) :
    Option (Except (Pkcs15Error T) Bytes × σ) :=
  let cap := min (expectedSize.getD maxCertBytes) maxCertBytes
  loop (toEndTurn card cap) maxTurns { world := s }

/-- `der_object_total_length`. -/
def derObjectTotalLength : Bytes → Except Unit (Option Nat)
  | _ :: first :: rest =>
    if first &&& 0x80 = 0 then .ok (some (2 + first.toNat))
    else
      let octetCount := (first &&& 0x7F).toNat
      if octetCount = 0 ∨ 2 < octetCount then .error ()
      else if rest.length < octetCount then .ok none
      else .ok (some (2 + octetCount + beValue (rest.take octetCount)))
  | _ => .ok none

/-- The declared length, once the header is there. -/
def learnTotal (what : String) (total : Option Nat) (collected : Bytes) :
    Except (Pkcs15Error T) (Option Nat) :=
  match total with
  | some total => .ok (some total)
  | none =>
    match derObjectTotalLength collected with
    | .error () => .error (.invalidData what)
    | .ok none => .ok none
    | .ok (some total) => if maxCertBytes < total then .error .tooLarge else .ok (some total)

/-- One turn of `read_binary_der_object`; its offset is the length of what it has. -/
def derObjectTurn (what : String) (s : ReadState σ) :
    Turn (ReadState σ) (Except (Pkcs15Error T) Bytes × σ) :=
  let cap := s.total.getD maxCertBytes
  if cap ≤ s.collected.length then .done (.ok (s.collected.take cap), s.world)
  else
    let want := min (cap - s.collected.length) readChunk
    match card (ReadBinaryByOffset.mk s.collected.length want).intoApdu s.world with
    | (.error e, w) => .done (.error (.transport e), w)
    | (.ok r, w) =>
      if !r.isOk && !eof r then .done (.error (.sw r.sw), w)
      else if want < r.body.length then .done (.error (.invalidData what), w)
      else if r.body.isEmpty then
        .done (.error (if s.collected.isEmpty then .empty else .invalidData what), w)
      else
        let collected := s.collected ++ r.body
        match learnTotal what s.total collected with
        | .error e => .done (.error e, w)
        | .ok none =>
          if r.body.length < want ∨ eof r then .done (.error (.invalidData what), w)
          else .next { s with collected, total := none, world := w }
        | .ok (some total) =>
          if total ≤ collected.length then .done (.ok (collected.take total), w)
          else if r.body.length < want ∨ eof r then .done (.error (.invalidData what), w)
          else .next { s with collected, total := some total, world := w }

/-- `read_binary_der_object`. -/
def readBinaryDerObject (what : String) (s : σ) : Option (Except (Pkcs15Error T) Bytes × σ) :=
  loop (derObjectTurn card what) maxTurns { world := s }

/-! ## §3. Any card -/

section
variable {card}

theorem finish_ok {collected bytes : Bytes}
    (h : (finish collected : Except (Pkcs15Error T) Bytes) = .ok bytes) :
    bytes = collected ∧ bytes.length ≤ maxCertBytes := by
  unfold finish at h
  split at h
  · exact absurd h (by simp)
  split at h
  · exact absurd h (by simp)
  next hle =>
    obtain rfl := Except.ok.inj h
    exact ⟨rfl, by omega⟩

/-- What a turn of `read_binary_to_end` that goes on has read. -/
theorem toEndTurn_next {cap : Nat} {s s' : ReadState σ} (h : toEndTurn card cap s = .next s') :
    s.offset < cap ∧ ∃ r w,
      card (ReadBinaryByOffset.mk s.offset (min (cap - s.offset) readChunk)).intoApdu s.world =
        (.ok r, w) ∧
      min (cap - s.offset) readChunk ≤ r.body.length ∧
      s' = { s with collected := s.collected ++ r.body, offset := s.offset + r.body.length,
                    world := w } := by
  unfold toEndTurn at h
  split at h
  case isFalse => exact absurd h (by simp)
  next hlt =>
  dsimp only at h
  split at h
  · exact absurd h (by simp)
  next r w hanswer =>
  split at h
  · exact absurd h (by simp)
  split at h
  · exact absurd h (by simp)
  next hbreak =>
  injection h with h
  exact ⟨hlt, r, w, hanswer, by omega, h.symm⟩

/-- How a turn of `read_binary_to_end` ends the loop. -/
theorem toEndTurn_done {cap : Nat} {s : ReadState σ} {result : Except (Pkcs15Error T) Bytes × σ}
    (h : toEndTurn card cap s = .done result) :
    (cap ≤ s.offset ∧ result = (finish s.collected, s.world)) ∨
      s.offset < cap ∧ ∃ answer w,
        card (ReadBinaryByOffset.mk s.offset (min (cap - s.offset) readChunk)).intoApdu s.world =
          (answer, w) ∧
        ((∃ e, answer = .error e ∧ result = (.error (.transport e), w)) ∨
          ∃ r, answer = .ok r ∧
            (((r.isOk = false ∧ eof r = false) ∧ result = (.error (.sw r.sw), w)) ∨
              ((r.body.length < min (cap - s.offset) readChunk ∨ eof r = true) ∧
                result = (finish (s.collected ++ r.body), w)))) := by
  unfold toEndTurn at h
  split at h
  case isFalse hge =>
    injection h with h
    exact .inl ⟨by omega, h.symm⟩
  next hlt =>
  dsimp only at h
  refine .inr ⟨hlt, ?_⟩
  split at h
  next e w hanswer =>
    injection h with h
    exact ⟨_, w, hanswer, .inl ⟨e, rfl, h.symm⟩⟩
  next r w hanswer =>
  refine ⟨_, w, hanswer, .inr ⟨r, rfl, ?_⟩⟩
  split at h
  next hsw =>
    injection h with h
    exact .inl ⟨by simpa using hsw, h.symm⟩
  split at h
  next hbreak =>
    injection h with h
    refine .inr ⟨?_, h.symm⟩
    have hpos : 0 < min (cap - s.offset) readChunk := by
      unfold readChunk
      omega
    obtain hempty | hshort | heof := hbreak
    · exact .inl (by omega)
    · exact .inl hshort
    · exact .inr heof
  · exact absurd h (by simp)

/-- `read_binary_to_end` ends. -/
theorem readBinaryToEnd_isSome (card : Card σ T) (expectedSize : Option Nat) (s : σ) :
    ∃ result, readBinaryToEnd card expectedSize s = some result := by
  refine loop_isSome (fun s : ReadState σ =>
    (min (expectedSize.getD maxCertBytes) maxCertBytes - s.offset + 127) / 128) ?_ ?_
  · intro s s' h
    obtain ⟨hlt, r, w, -, hread, rfl⟩ := toEndTurn_next h
    unfold readChunk at hread
    dsimp only
    omega
  · unfold maxTurns maxCertBytes readChunk
    dsimp only
    omega

theorem readBinaryToEnd_bounded {expectedSize : Option Nat} {s w : σ} {bytes : Bytes}
    (h : readBinaryToEnd card expectedSize s = some (.ok bytes, w)) :
    bytes.length ≤ maxCertBytes := by
  refine loop_post (fun _ => True) (fun result => ∀ bytes, result.1 = .ok bytes →
    bytes.length ≤ maxCertBytes) (fun _ _ _ _ => trivial) ?_ trivial h bytes rfl
  intro s result _ hdone bytes hbytes
  obtain ⟨-, rfl⟩ | ⟨-, answer, w, -, ⟨e, -, rfl⟩ | ⟨r, -, ⟨-, rfl⟩ | ⟨-, rfl⟩⟩⟩ :=
    toEndTurn_done hdone
  · exact (finish_ok hbytes).2
  · exact absurd hbytes (by simp)
  · exact absurd hbytes (by simp)
  · exact (finish_ok hbytes).2

theorem learnTotal_ok {what : String} {total total' : Option Nat} {collected : Bytes}
    (h : (learnTotal what total collected : Except (Pkcs15Error T) _) = .ok total') :
    (total = total' ∧ total'.isSome) ∨ total = none ∧
      derObjectTotalLength collected = .ok total' ∧ ∀ t, total' = some t → t ≤ maxCertBytes := by
  unfold learnTotal at h
  split at h
  · exact .inl ⟨Except.ok.inj h, by rw [← Except.ok.inj h]; rfl⟩
  split at h
  · exact absurd h (by simp)
  next hder =>
    obtain rfl := Except.ok.inj h
    exact .inr ⟨rfl, hder, by simp⟩
  next t hder =>
    split at h
    · exact absurd h (by simp)
    next hle =>
      obtain rfl := Except.ok.inj h
      exact .inr ⟨rfl, hder, fun t' ht' => by
        obtain rfl := Option.some.inj ht'
        omega⟩

/-- What a turn of `read_binary_der_object` that goes on has read. -/
theorem derObjectTurn_next {what : String} {s s' : ReadState σ}
    (h : derObjectTurn card what s = .next s') :
    s.collected.length < s.total.getD maxCertBytes ∧ ∃ r w,
      card (ReadBinaryByOffset.mk s.collected.length
        (min (s.total.getD maxCertBytes - s.collected.length) readChunk)).intoApdu s.world =
          (.ok r, w) ∧
      r.body.length = min (s.total.getD maxCertBytes - s.collected.length) readChunk ∧
      (learnTotal what s.total (s.collected ++ r.body) : Except (Pkcs15Error T) _) =
        .ok s'.total ∧
      (∀ t, s'.total = some t → (s.collected ++ r.body).length < t) ∧
      s' = { s with collected := s.collected ++ r.body, total := s'.total, world := w } := by
  unfold derObjectTurn at h
  dsimp only at h
  split at h
  · exact absurd h (by simp)
  next hlt =>
  split at h
  · exact absurd h (by simp)
  next r w hanswer =>
  split at h
  · exact absurd h (by simp)
  split at h
  · exact absurd h (by simp)
  next hlong =>
  split at h
  · exact absurd h (by simp)
  split at h
  · exact absurd h (by simp)
  next hlearn =>
    split at h
    · exact absurd h (by simp)
    next hbreak =>
      injection h with h
      subst h
      exact ⟨by omega, r, w, hanswer, by omega, hlearn, by simp, rfl⟩
  next t hlearn =>
    split at h
    · exact absurd h (by simp)
    next hshort =>
    split at h
    · exact absurd h (by simp)
    next hbreak =>
      injection h with h
      subst h
      refine ⟨by omega, r, w, hanswer, by omega, hlearn, ?_, rfl⟩
      intro t' ht'
      obtain rfl := Option.some.inj ht'
      omega

/-- How a turn of `read_binary_der_object` returns an object. -/
theorem derObjectTurn_ok {what : String} {s : ReadState σ} {bytes : Bytes} {w : σ}
    (h : derObjectTurn card what s = .done (.ok bytes, w)) :
    (s.total.getD maxCertBytes ≤ s.collected.length ∧
        bytes = s.collected.take (s.total.getD maxCertBytes)) ∨
      s.collected.length < s.total.getD maxCertBytes ∧ ∃ r w total,
        card (ReadBinaryByOffset.mk s.collected.length
          (min (s.total.getD maxCertBytes - s.collected.length) readChunk)).intoApdu s.world =
            (.ok r, w) ∧
        (learnTotal what s.total (s.collected ++ r.body) : Except (Pkcs15Error T) _) =
          .ok (some total) ∧
        total ≤ (s.collected ++ r.body).length ∧ bytes = (s.collected ++ r.body).take total := by
  unfold derObjectTurn at h
  dsimp only at h
  split at h
  next hge =>
    injection h with h
    injection h with h
    exact .inl ⟨hge, (Except.ok.inj h).symm⟩
  next hlt =>
  refine .inr ⟨by omega, ?_⟩
  split at h
  · exact absurd h (by simp)
  next r w' hanswer =>
  split at h
  · exact absurd h (by simp)
  split at h
  · exact absurd h (by simp)
  split at h
  · exact absurd h (by simp)
  split at h
  · exact absurd h (by simp)
  · split at h <;> exact absurd h (by simp)
  next total hlearn =>
    split at h
    next hle =>
      injection h with h
      injection h with h
      exact ⟨r, w', total, hanswer, hlearn, hle, (Except.ok.inj h).symm⟩
    · split at h <;> exact absurd h (by simp)

/-- A length that becomes known is no more than the cap it takes the place of. -/
theorem total_le_of_next {what : String} {s s' : ReadState σ}
    (h : derObjectTurn card what s = .next s') :
    s'.total.getD maxCertBytes ≤ s.total.getD maxCertBytes := by
  obtain ⟨-, r, w, -, -, hlearn, -, -⟩ := derObjectTurn_next h
  obtain ⟨hsame, -⟩ | ⟨hnone, -, hle⟩ := learnTotal_ok hlearn
  · rw [hsame]
  · rw [hnone]
    cases ht : s'.total with
    | none => exact le_refl _
    | some t => exact hle t ht

/-- `read_binary_der_object` ends. -/
theorem readBinaryDerObject_isSome (card : Card σ T) (what : String) (s : σ) :
    ∃ result, readBinaryDerObject card what s = some result := by
  refine loop_isSome (fun s : ReadState σ =>
    (s.total.getD maxCertBytes - s.collected.length + 127) / 128) ?_ ?_
  · intro s s' h
    have hcap := total_le_of_next h
    obtain ⟨hlt, r, w, -, hread, -, -, hs'⟩ := derObjectTurn_next h
    have hcollected : s'.collected.length = s.collected.length + r.body.length := by
      rw [hs', List.length_append]
    unfold readChunk at hread
    omega
  · unfold maxTurns maxCertBytes readChunk
    simp

theorem readBinaryDerObject_bounded {what : String} {s w : σ} {bytes : Bytes}
    (h : readBinaryDerObject card what s = some (.ok bytes, w)) :
    bytes.length ≤ maxCertBytes := by
  refine loop_post (fun s : ReadState σ => s.total.getD maxCertBytes ≤ maxCertBytes)
    (fun result => ∀ bytes, result.1 = .ok bytes → bytes.length ≤ maxCertBytes) ?_ ?_
    (le_refl _) h bytes rfl
  · intro s s' htotal hnext
    exact le_trans (total_le_of_next hnext) htotal
  · intro s result htotal hdone bytes hbytes
    obtain ⟨outcome, w⟩ := result
    obtain rfl : outcome = .ok bytes := hbytes
    obtain ⟨-, rfl⟩ | ⟨-, r, w', total, -, hlearn, -, rfl⟩ := derObjectTurn_ok hdone
    · exact le_trans (List.length_take_le _ _) htotal
    · refine le_trans (List.length_take_le _ _) ?_
      obtain ⟨hsame, -⟩ | ⟨-, -, hle⟩ := learnTotal_ok hlearn
      · rw [hsame] at htotal
        exact htotal
      · exact hle total rfl

end

/-! ## §4. A card that holds a file -/

/-- The card answers READ BINARY at an offset with the octets of `f` that are there, and says
    that the file ends only where it does. -/
def Holds (card : Card σ T) (f : Bytes) : Prop :=
  ∀ offset le s, offset < 0x8000 → 0 < le → le < 0x100 → ∃ r w,
    card [0x00, 0xB0, UInt8.ofNat (offset / 256), UInt8.ofNat offset, UInt8.ofNat le] s =
      (.ok r, w) ∧
    r.body = (f.drop offset).take le ∧ (r.isOk ∨ eof r ∧ f.length ≤ offset + le)

theorem not_eof_of_isOk {r : ResponseApdu} (h : r.isOk = true) : eof r = false := by
  have hsw : r.sw = 0x9000 := of_decide_eq_true h
  rw [eof, hsw]
  rfl

theorem intoApdu_eq {offset le : Nat} (h : offset < 0x8000) :
    (ReadBinaryByOffset.mk offset le).intoApdu =
      [0x00, 0xB0, UInt8.ofNat (offset / 256), UInt8.ofNat offset, UInt8.ofNat le] := by
  have hmask : UInt8.ofNat (offset / 256) &&& 0x7F = UInt8.ofNat (offset / 256) := by
    apply UInt8.toNat_inj.mp
    rw [UInt8.toNat_and, UInt8.toNat_ofNat']
    show offset / 256 % 256 &&& (2 ^ 7 - 1) = _
    rw [Nat.and_two_pow_sub_one_eq_mod]
    omega
  simp only [ReadBinaryByOffset.intoApdu, hmask]

section
variable {card} {f : Bytes}

/-- What a chunk brings. -/
theorem Holds.answer (hcard : Holds card f) {offset cap : Nat} (hlt : offset < cap)
    (hcap : cap ≤ maxCertBytes) {answer : Except T ResponseApdu} {s w : σ}
    (h : card (ReadBinaryByOffset.mk offset (min (cap - offset) readChunk)).intoApdu s =
      (answer, w)) :
    ∃ r, answer = .ok r ∧ r.body = (f.drop offset).take (min (cap - offset) readChunk) ∧
      (r.isOk = true ∨ eof r = true) ∧
      (eof r = true → f.length ≤ offset + min (cap - offset) readChunk) := by
  have hbound : offset < 0x8000 := by
    unfold maxCertBytes at hcap
    omega
  rw [intoApdu_eq hbound] at h
  obtain ⟨r, w', hanswer, hbody, hsw⟩ := hcard offset (min (cap - offset) readChunk) s hbound
    (by unfold readChunk; omega) (by unfold readChunk; omega)
  rw [hanswer] at h
  obtain ⟨rfl, rfl⟩ := Prod.mk.inj h
  refine ⟨r, rfl, hbody, hsw.imp_right And.left, ?_⟩
  intro heof
  obtain hok | ⟨-, hend⟩ := hsw
  · rw [not_eof_of_isOk hok] at heof
    exact absurd heof (by simp)
  · exact hend

/-- What the loop of `read_binary_to_end` ends with. -/
theorem toEndLoop_honest (hcard : Holds card f) {cap fuel : Nat} (hcap : cap ≤ maxCertBytes)
    {s : σ} {result : Except (Pkcs15Error T) Bytes × σ}
    (h : loop (toEndTurn card cap) fuel { world := s } = some result) :
    result.1 = finish (f.take cap) := by
  refine loop_post
    (fun s : ReadState σ => s.collected = f.take s.offset ∧ s.offset ≤ f.length ∧ s.offset ≤ cap)
    (fun result => result.1 = finish (f.take cap)) ?_ ?_ ?_ h
  · intro s s' hinv hnext
    obtain ⟨hcollected, hoffset, hle⟩ := hinv
    obtain ⟨hlt, r, w, hanswer, hread, rfl⟩ := toEndTurn_next hnext
    obtain ⟨r', hr', hbody, -, -⟩ := hcard.answer hlt hcap hanswer
    obtain rfl := Except.ok.inj hr'
    have hlen : r.body.length = min (cap - s.offset) readChunk := by
      have hshort : r.body.length ≤ min (cap - s.offset) readChunk := by
        rw [hbody]
        exact List.length_take_le _ _
      omega
    have hthere : r.body.length ≤ f.length - s.offset := by
      rw [hbody, List.length_take, List.length_drop]
      exact Nat.min_le_right _ _
    refine ⟨?_, ?_, ?_⟩
    · dsimp only
      rw [hcollected, List.take_add, hlen, ← hbody]
    · dsimp only
      omega
    · dsimp only
      omega
  · intro s result hinv hdone
    obtain ⟨hcollected, hoffset, hle⟩ := hinv
    obtain ⟨hge, rfl⟩ | ⟨hlt, answer, w, hanswer, hcases⟩ := toEndTurn_done hdone
    · have heq : s.offset = cap := by omega
      rw [hcollected, heq]
    · obtain ⟨r, rfl, hbody, hsw, hend⟩ := hcard.answer hlt hcap hanswer
      obtain ⟨e, he, -⟩ | ⟨r', hr', ⟨⟨hnotOk, hnotEof⟩, -⟩ | ⟨hbreak, rfl⟩⟩ := hcases
      · exact absurd he (by simp)
      · obtain rfl := Except.ok.inj hr'
        simp [hnotOk, hnotEof] at hsw
      · obtain rfl := Except.ok.inj hr'
        -- the chunk was short, or the card said so: the file ends within it
        have hfile : f.length ≤ s.offset + min (cap - s.offset) readChunk := by
          obtain hshort | heof := hbreak
          · rw [hbody, List.length_take, List.length_drop] at hshort
            omega
          · exact hend heof
        show finish (s.collected ++ r.body) = _
        rw [hcollected, hbody, ← List.take_add, List.take_of_length_le hfile,
          List.take_of_length_le (by omega)]
  · exact ⟨rfl, Nat.zero_le _, Nat.zero_le _⟩

/-- **`read_binary_to_end` from a card that holds a file** returns its octets up to the cap. -/
theorem readBinaryToEnd_honest (hcard : Holds card f) (expectedSize : Option Nat) (s : σ) :
    ∃ w, readBinaryToEnd card expectedSize s =
      some (finish (f.take (min (expectedSize.getD maxCertBytes) maxCertBytes)), w) := by
  obtain ⟨result, hresult⟩ := readBinaryToEnd_isSome card expectedSize s
  have hpost := toEndLoop_honest hcard (Nat.min_le_right _ _) hresult
  exact ⟨result.2, by rw [hresult, ← hpost]⟩

/-- Four octets are enough of a header. -/
theorem derObjectTotalLength_take {n : Nat} (hn : 4 ≤ n) (f : Bytes) :
    derObjectTotalLength (f.take n) = derObjectTotalLength f := by
  obtain ⟨m, rfl⟩ : ∃ m, n = m + 2 := ⟨n - 2, by omega⟩
  rcases f with _ | ⟨tag, _ | ⟨first, rest⟩⟩
  · rfl
  · rfl
  · simp only [List.take_succ_cons, derObjectTotalLength, List.length_take]
    split
    · rfl
    split
    · rfl
    next hcount =>
    have hshort : min m rest.length < (first &&& 0x7F).toNat ↔
        rest.length < (first &&& 0x7F).toNat := by omega
    have htake : (rest.take m).take (first &&& 0x7F).toNat =
        rest.take (first &&& 0x7F).toNat := by
      rw [List.take_take, Nat.min_eq_left (by omega)]
    simp only [hshort, htake]

theorem length_lt_of_derObjectTotalLength {p : Bytes} (h : derObjectTotalLength p = .ok none) :
    p.length < 4 := by
  rcases p with _ | ⟨tag, _ | ⟨first, rest⟩⟩
  · simp
  · simp
  · simp only [derObjectTotalLength] at h
    split at h
    · exact absurd h (by simp)
    split at h
    · exact absurd h (by simp)
    split at h
    · simp only [List.length_cons]
      omega
    · exact absurd h (by simp)

/-- What the loop of `read_binary_der_object` knows of the file. -/
structure DerInv (f : Bytes) (s : ReadState σ) : Prop where
  collected : s.collected = f.take s.collected.length
  unknown : s.total = none → s.collected = []
  known : ∀ t, s.total = some t →
    derObjectTotalLength f = .ok (some t) ∧ t ≤ maxCertBytes ∧ s.collected.length < t

theorem DerInv.lt {s : ReadState σ} (h : DerInv f s) :
    s.collected.length < s.total.getD maxCertBytes ∧ s.total.getD maxCertBytes ≤ maxCertBytes := by
  cases htotal : s.total with
  | none =>
    rw [h.unknown htotal]
    exact ⟨by decide, le_refl _⟩
  | some t => exact ⟨(h.known t htotal).2.2, (h.known t htotal).2.1⟩

/-- What is collected with the next chunk, and what its header says. -/
theorem DerInv.chunk {s : ReadState σ} (h : DerInv f s) {body : Bytes}
    (hbody : body = (f.drop s.collected.length).take
      (min (s.total.getD maxCertBytes - s.collected.length) readChunk)) :
    s.collected ++ body = f.take (s.collected.length +
        min (s.total.getD maxCertBytes - s.collected.length) readChunk) ∧
      (s.total = none →
        derObjectTotalLength (s.collected ++ body) = derObjectTotalLength f) := by
  have hall : s.collected ++ body = f.take (s.collected.length +
      min (s.total.getD maxCertBytes - s.collected.length) readChunk) := by
    rw [List.take_add, ← h.collected, ← hbody]
  refine ⟨hall, fun hnone => ?_⟩
  rw [hall, derObjectTotalLength_take]
  rw [hnone, h.unknown hnone]
  decide

theorem derInv_next (hcard : Holds card f) {what : String} {s s' : ReadState σ} (h : DerInv f s)
    (hnext : derObjectTurn card what s = .next s') : DerInv f s' := by
  obtain ⟨hlt, hcap⟩ := h.lt
  obtain ⟨-, r, w, hanswer, hread, hlearn, hmore, hs'⟩ := derObjectTurn_next hnext
  obtain ⟨r', hr', hbody, -, -⟩ := hcard.answer hlt hcap hanswer
  obtain rfl := Except.ok.inj hr'
  obtain ⟨hall, hheader⟩ := h.chunk hbody
  have hcollected : s'.collected = s.collected ++ r.body := by rw [hs']
  have hlen : s'.collected.length = s.collected.length +
      min (s.total.getD maxCertBytes - s.collected.length) readChunk := by
    rw [hcollected, List.length_append, hread]
  refine ⟨by rw [hlen, ← hall, hcollected], fun hnone => ?_, fun t ht => ?_⟩
  · -- a whole chunk holds the header
    exfalso
    obtain ⟨-, hsome⟩ | ⟨hunknown, hder, -⟩ := learnTotal_ok hlearn
    · rw [hnone] at hsome
      exact absurd hsome (by simp)
    · rw [hnone, ← hcollected] at hder
      have hfew := length_lt_of_derObjectTotalLength hder
      rw [hlen, hunknown, h.unknown hunknown] at hfew
      exact absurd hfew (by decide)
  · have hshort := hmore t ht
    rw [← hcollected] at hshort
    obtain ⟨hsame, -⟩ | ⟨hunknown, hder, hle⟩ := learnTotal_ok hlearn
    · obtain ⟨hder, hle, -⟩ := h.known t (hsame.trans ht)
      exact ⟨hder, hle, hshort⟩
    · rw [hheader hunknown, ht] at hder
      exact ⟨hder, hle t ht, hshort⟩

/-- An object that is returned is as long as the file's header declares. -/
theorem derObjectTurn_sound (hcard : Holds card f) {what : String} {s : ReadState σ}
    (h : DerInv f s) {bytes : Bytes} {w : σ}
    (hdone : derObjectTurn card what s = .done (.ok bytes, w)) :
    ∃ t, derObjectTotalLength f = .ok (some t) ∧ t ≤ maxCertBytes ∧ t ≤ f.length ∧
      bytes = f.take t := by
  obtain ⟨hlt, hcap⟩ := h.lt
  obtain ⟨hge, -⟩ | ⟨-, r, w', total, hanswer, hlearn, hle, rfl⟩ := derObjectTurn_ok hdone
  · omega
  obtain ⟨r', hr', hbody, -, -⟩ := hcard.answer hlt hcap hanswer
  obtain rfl := Except.ok.inj hr'
  obtain ⟨hall, hheader⟩ := h.chunk hbody
  rw [hall, List.length_take] at hle
  have htake : (s.collected ++ r.body).take total = f.take total := by
    rw [hall, List.take_take, Nat.min_eq_left (by omega)]
  obtain ⟨hsame, -⟩ | ⟨hunknown, hder, hmax⟩ := learnTotal_ok hlearn
  · obtain ⟨hder, hmax, -⟩ := h.known total hsame
    exact ⟨total, hder, hmax, by omega, htake⟩
  · rw [hheader hunknown] at hder
    exact ⟨total, hder, hmax total rfl, by omega, htake⟩

theorem derObjectTotalLength_pos {f : Bytes} {t : Nat}
    (h : derObjectTotalLength f = .ok (some t)) : 0 < t := by
  rcases f with _ | ⟨tag, _ | ⟨first, rest⟩⟩
  · exact absurd h (by simp [derObjectTotalLength])
  · exact absurd h (by simp [derObjectTotalLength])
  · simp only [derObjectTotalLength] at h
    split at h
    · obtain rfl := Option.some.inj (Except.ok.inj h)
      omega
    split at h
    · exact absurd h (by simp)
    split at h
    · exact absurd h (by simp)
    · obtain rfl := Option.some.inj (Except.ok.inj h)
      omega

/-- What is known of the length is what the file's header declares. -/
theorem DerInv.known_eq {s : ReadState σ} (h : DerInv f s) {t t' : Nat}
    (hder : derObjectTotalLength f = .ok (some t)) (htotal : s.total = some t') : t' = t := by
  obtain ⟨hder', -, -⟩ := h.known t' htotal
  exact Option.some.inj (Except.ok.inj (hder'.symm.trans hder))

/-- Fewer octets are collected than the file's header declares. -/
theorem DerInv.lt_declared {s : ReadState σ} (h : DerInv f s) {t : Nat}
    (hder : derObjectTotalLength f = .ok (some t)) : s.collected.length < t := by
  cases htotal : s.total with
  | none =>
    rw [h.unknown htotal]
    exact derObjectTotalLength_pos hder
  | some t' =>
    obtain ⟨-, -, hless⟩ := h.known t' htotal
    exact hless.trans_eq (h.known_eq hder htotal)

/-- The next chunk teaches what the file's header declares. -/
theorem DerInv.learns {s : ReadState σ} (h : DerInv f s) {t : Nat}
    (hder : derObjectTotalLength f = .ok (some t)) (hmax : t ≤ maxCertBytes) {body : Bytes}
    (hbody : body = (f.drop s.collected.length).take
      (min (s.total.getD maxCertBytes - s.collected.length) readChunk)) (what : String) :
    (learnTotal what s.total (s.collected ++ body) : Except (Pkcs15Error T) (Option Nat)) =
      .ok (some t) := by
  cases htotal : s.total with
  | none =>
    obtain ⟨-, hheader⟩ := h.chunk hbody
    rw [learnTotal, hheader htotal, hder]
    exact if_neg (by omega)
  | some t' =>
    rw [learnTotal, h.known_eq hder htotal]

/-- An object that the file holds is not refused. -/
theorem derObjectTurn_complete (hcard : Holds card f) {what : String} {s : ReadState σ}
    (h : DerInv f s) {t : Nat} (hder : derObjectTotalLength f = .ok (some t))
    (hmax : t ≤ maxCertBytes) (hfile : t ≤ f.length) :
    (∃ s', derObjectTurn card what s = .next s') ∨
      ∃ w, derObjectTurn card what s = .done (.ok (f.take t), w) := by
  obtain ⟨hlt, hcap⟩ := h.lt
  have hthere := h.lt_declared hder
  obtain ⟨answer, w, hanswer⟩ : ∃ answer w, card (ReadBinaryByOffset.mk s.collected.length
      (min (s.total.getD maxCertBytes - s.collected.length) readChunk)).intoApdu s.world =
        (answer, w) := ⟨_, _, rfl⟩
  obtain ⟨r, rfl, hbody, hsw, hend⟩ := hcard.answer hlt hcap hanswer
  obtain ⟨hall, -⟩ := h.chunk hbody
  have hpos : 0 < min (s.total.getD maxCertBytes - s.collected.length) readChunk := by
    unfold readChunk
    omega
  have hlen : r.body.length = min (min (s.total.getD maxCertBytes - s.collected.length) readChunk)
      (f.length - s.collected.length) := by
    rw [hbody, List.length_take, List.length_drop]
  have hlearn : (learnTotal what s.total (s.collected ++ r.body) : Except (Pkcs15Error T) _) =
      .ok (some t) := h.learns hder hmax hbody what
  have hnotSw : ¬ (!r.isOk && !eof r) = true := by
    obtain hok | heof := hsw
    · simp [hok]
    · simp [heof]
  have hnotLong : ¬ min (s.total.getD maxCertBytes - s.collected.length) readChunk <
      r.body.length := by omega
  have hnotEmpty : ¬ r.body.isEmpty = true := by
    rw [List.isEmpty_iff_length_eq_zero]
    omega
  unfold derObjectTurn
  simp only [if_neg (Nat.not_le.mpr hlt), hanswer, if_neg hnotSw, if_neg hnotLong,
    if_neg hnotEmpty, hlearn]
  split
  next hle =>
    right
    refine ⟨w, ?_⟩
    rw [hall, List.length_take] at hle
    rw [hall, List.take_take, Nat.min_eq_left (by omega)]
  next hless =>
    left
    rw [List.length_append] at hless
    have hgoesOn : ¬ (r.body.length < min (s.total.getD maxCertBytes - s.collected.length)
        readChunk ∨ eof r = true) := by
      intro hstop
      obtain hshort | heof := hstop
      · omega
      · have hfileEnds := hend heof
        omega
    rw [if_neg hgoesOn]
    exact ⟨_, rfl⟩

/-- **`read_binary_der_object` from a card that holds a file** returns what the header of the
    file declares, and refuses what is longer than the cap or the file. -/
theorem readBinaryDerObject_honest (hcard : Holds card f) (what : String) (s : σ) :
    ∃ result w, readBinaryDerObject card what s = some (result, w) ∧
      ∀ bytes, result = .ok bytes ↔ ∃ t, derObjectTotalLength f = .ok (some t) ∧
        t ≤ maxCertBytes ∧ t ≤ f.length ∧ bytes = f.take t := by
  obtain ⟨⟨result, w⟩, hresult⟩ := readBinaryDerObject_isSome card what s
  have hstart : DerInv f ({ world := s } : ReadState σ) :=
    ⟨rfl, fun _ => rfl, fun t ht => absurd ht (by simp)⟩
  refine ⟨result, w, hresult, fun bytes => ⟨fun hok => ?_, fun hexists => ?_⟩⟩
  · subst hok
    refine loop_post (DerInv f) (fun result => ∀ bytes, result.1 = .ok bytes →
      ∃ t, derObjectTotalLength f = .ok (some t) ∧ t ≤ maxCertBytes ∧ t ≤ f.length ∧
        bytes = f.take t) (fun s s' h hnext => derInv_next hcard h hnext) ?_ hstart hresult
      bytes rfl
    intro s result h hdone bytes hbytes
    obtain ⟨outcome, w⟩ := result
    obtain rfl : outcome = .ok bytes := hbytes
    exact derObjectTurn_sound hcard h hdone
  · obtain ⟨t, hder, hmax, hfile, rfl⟩ := hexists
    refine loop_post (DerInv f) (fun result => result.1 = .ok (f.take t))
      (fun s s' h hnext => derInv_next hcard h hnext) ?_ hstart hresult
    intro s result h hdone
    obtain ⟨s', hnext⟩ | ⟨w, hok⟩ := derObjectTurn_complete hcard h hder hmax hfile
    · rw [hnext] at hdone
      exact absurd hdone (by simp)
    · rw [hok] at hdone
      injection hdone with hdone
      rw [← hdone]

end

/-! ## §5. Complete or refused -/

/-- `bytes` is the object the file begins with. -/
def FirstObject (f bytes : Bytes) : Prop :=
  bytes <+: f ∧ ∃ object : BerObject, bytes = object.encode

/-- A file whose first octet is no whole tag: what its second octet declares, if it is within
    the file and the cap, is by chance the object's length. -/
def TagRead (f : Bytes) : Prop :=
  (∃ tag rest, f = tag :: rest ∧ tag &&& 0x1F = 0x1F) →
    ∀ t, derObjectTotalLength f = .ok (some t) → t ≤ maxCertBytes → t ≤ f.length →
      FirstObject f (f.take t)

theorem highBit_clear {b : UInt8} (h : b &&& 0x80 = 0) : b < 0x80 := by
  have hbits : ∀ n < 256, n &&& 0x80 = 0 → n < 0x80 := by decide +kernel
  have hn := congrArg UInt8.toNat h
  rw [UInt8.toNat_and] at hn
  exact UInt8.lt_iff_toNat_lt.mpr (hbits b.toNat b.toNat_lt hn)

theorem highBit_set {b : UInt8} (h : b &&& 0x80 ≠ 0) :
    0x80 ≤ b.toNat ∧ (b &&& 0x7F).toNat = b.toNat - 0x80 := by
  have hbits : ∀ n < 256, n &&& 0x80 ≠ 0 → 0x80 ≤ n ∧ n &&& 0x7F = n - 0x80 := by
    decide +kernel
  have hn : b.toNat &&& 0x80 ≠ 0 := by
    intro hzero
    apply h
    apply UInt8.toNat_inj.mp
    rw [UInt8.toNat_and]
    exact hzero
  rw [UInt8.toNat_and]
  exact hbits b.toNat b.toNat_lt hn

/-- **Behind a tag of one octet** the declared length is the object's. -/
theorem firstObject_take {tag : UInt8} {rest : Bytes} (htag : tag &&& 0x1F ≠ 0x1F) {t : Nat}
    (h : derObjectTotalLength (tag :: rest) = .ok (some t)) (hfile : t ≤ (tag :: rest).length) :
    FirstObject (tag :: rest) ((tag :: rest).take t) := by
  refine ⟨List.take_prefix _ _, ?_⟩
  cases rest with
  | nil => exact absurd h (by simp [derObjectTotalLength])
  | cons first rest =>
    simp only [List.length_cons] at hfile
    simp only [derObjectTotalLength] at h
    split at h
    next hshort =>
      obtain rfl := Option.some.inj (Except.ok.inj h)
      have hlen : (rest.take first.toNat).length = first.toNat := by
        rw [List.length_take]
        omega
      refine ⟨⟨[tag], [first], rest.take first.toNat, .inl ⟨tag, rfl, htag⟩,
        .inl ⟨first, rfl, highBit_clear hshort, hlen.symm⟩⟩, ?_⟩
      rw [Nat.add_comm 2]
      rfl
    next hlong =>
    obtain ⟨hge, hcount⟩ := highBit_set hlong
    split at h
    · exact absurd h (by simp)
    next hoctets =>
    split at h
    · exact absurd h (by simp)
    next hheader =>
    obtain rfl := Option.some.inj (Except.ok.inj h)
    have hmore : (rest.take (first &&& 0x7F).toNat).length = first.toNat - 0x80 := by
      rw [List.length_take]
      omega
    have hvalue : ((rest.drop (first &&& 0x7F).toNat).take
        (beValue (rest.take (first &&& 0x7F).toNat))).length =
          beValue (rest.take (first &&& 0x7F).toNat) := by
      rw [List.length_take, List.length_drop]
      omega
    have hlow : (0x80 : UInt8) < first := by
      rw [UInt8.lt_iff_toNat_lt]
      show 128 < first.toNat
      omega
    have hhigh : first < 0xFF := by
      rw [UInt8.lt_iff_toNat_lt]
      show first.toNat < 255
      omega
    refine ⟨⟨[tag], first :: rest.take (first &&& 0x7F).toNat,
      (rest.drop (first &&& 0x7F).toNat).take (beValue (rest.take (first &&& 0x7F).toNat)),
      .inl ⟨tag, rfl, htag⟩, .inr ⟨first, _, rfl, hlow, hhigh, hmore, hvalue.symm⟩⟩, ?_⟩
    have hsum : 2 + (first &&& 0x7F).toNat + beValue (rest.take (first &&& 0x7F).toNat) =
        (first &&& 0x7F).toNat + beValue (rest.take (first &&& 0x7F).toNat) + 1 + 1 := by omega
    rw [hsum, List.take_succ_cons, List.take_succ_cons, List.take_add]
    rfl

/-- **Bounds**: whatever the card does, both readers end, and return no more than the cap. -/
theorem reads_bounded (card : Card σ T) (expectedSize : Option Nat) (what : String) (s : σ) :
    (∃ result, readBinaryToEnd card expectedSize s = some result ∧
      ∀ bytes, result.1 = .ok bytes → bytes.length ≤ maxCertBytes) ∧
    (∃ result, readBinaryDerObject card what s = some result ∧
      ∀ bytes, result.1 = .ok bytes → bytes.length ≤ maxCertBytes) := by
  obtain ⟨⟨outcome, w⟩, hresult⟩ := readBinaryToEnd_isSome card expectedSize s
  obtain ⟨⟨outcome', w'⟩, hresult'⟩ := readBinaryDerObject_isSome card what s
  refine ⟨⟨_, hresult, fun bytes hok => ?_⟩, ⟨_, hresult', fun bytes hok => ?_⟩⟩
  · obtain rfl : outcome = .ok bytes := hok
    exact readBinaryToEnd_bounded hresult
  · obtain rfl : outcome' = .ok bytes := hok
    exact readBinaryDerObject_bounded hresult'

/-- **Complete or refused**: from a card that holds a file, the first reader returns the file
    or an error exactly when the file is no longer than the cap, and the second one the first
    object or an error exactly when no tag of more octets misleads it; both are bounded for
    every card. -/
theorem fileReads_exact {card : Card σ T} {f : Bytes} (hcard : Holds card f) (what : String)
    (s : σ) :
    ((∃ result w, readBinaryToEnd card none s = some (result, w) ∧
        ∀ bytes, result = .ok bytes → bytes = f) ↔ f.length ≤ maxCertBytes) ∧
    ((∃ result w, readBinaryDerObject card what s = some (result, w) ∧
        ∀ bytes, result = .ok bytes → FirstObject f bytes) ↔ TagRead f) ∧
    ∀ (other : Card σ T) (expectedSize : Option Nat),
      (∃ result, readBinaryToEnd other expectedSize s = some result ∧
        ∀ bytes, result.1 = .ok bytes → bytes.length ≤ maxCertBytes) ∧
      ∃ result, readBinaryDerObject other what s = some result ∧
        ∀ bytes, result.1 = .ok bytes → bytes.length ≤ maxCertBytes := by
  refine ⟨?_, ?_, fun other expectedSize => reads_bounded other expectedSize what s⟩
  · obtain ⟨w, hread⟩ := readBinaryToEnd_honest hcard none s
    have hcap : min ((none : Option Nat).getD maxCertBytes) maxCertBytes = maxCertBytes := by simp
    rw [hcap] at hread
    constructor
    · rintro ⟨result, w', hresult, hcomplete⟩
      rw [hread] at hresult
      obtain ⟨rfl, rfl⟩ := Prod.mk.inj (Option.some.inj hresult)
      by_contra hlong
      have hlen : (f.take maxCertBytes).length = maxCertBytes := by
        rw [List.length_take]
        omega
      have hfinish : (finish (f.take maxCertBytes) : Except (Pkcs15Error T) Bytes) =
          .ok (f.take maxCertBytes) := by
        have hnonempty : ¬ (f.take maxCertBytes).isEmpty = true := by
          rw [List.isEmpty_iff_length_eq_zero, hlen]
          decide
        rw [finish, if_neg hnonempty, if_neg (by omega)]
      have hsame := congrArg List.length (hcomplete _ hfinish)
      omega
    · intro hle
      refine ⟨_, w, hread, fun bytes hok => ?_⟩
      rw [(finish_ok hok).1, List.take_of_length_le hle]
  · obtain ⟨result, w, hread, hreturns⟩ := readBinaryDerObject_honest hcard what s
    constructor
    · rintro ⟨result', w', hresult, hcomplete⟩ - t hder hmax hfile
      rw [hread] at hresult
      obtain ⟨rfl, rfl⟩ := Prod.mk.inj (Option.some.inj hresult)
      exact hcomplete _ ((hreturns _).mpr ⟨t, hder, hmax, hfile, rfl⟩)
    · intro htag
      refine ⟨result, w, hread, fun bytes hok => ?_⟩
      obtain ⟨t, hder, hmax, hfile, rfl⟩ := (hreturns bytes).mp hok
      cases f with
      | nil => exact absurd hder (by simp [derObjectTotalLength])
      | cons tag rest =>
        by_cases hmulti : tag &&& 0x1F = 0x1F
        · exact htag ⟨tag, rest, rfl, hmulti⟩ t hder hmax hfile
        · exact firstObject_take hmulti hder hfile

/-- A card that holds `f` and never speaks of its end. -/
def plainCard (f : Bytes) : Card Unit Unit := fun apdu s =>
  match apdu with
  | [_, _, p1, p2, le] =>
    (.ok ⟨(f.drop (p1.toNat * 256 + p2.toNat)).take le.toNat, 0x90, 0x00⟩, s)
  | _ => (.ok ⟨[], 0x67, 0x00⟩, s)

theorem plainCard_holds (f : Bytes) : Holds (plainCard f) f := by
  intro offset le s hoffset _ hle
  refine ⟨⟨(f.drop offset).take le, 0x90, 0x00⟩, s, ?_, rfl, .inl (isOk_success _)⟩
  have hp1 : (UInt8.ofNat (offset / 256)).toNat = offset / 256 := Nat.mod_eq_of_lt (by omega)
  have hp2 : (UInt8.ofNat offset).toNat = offset % 256 := rfl
  have hp3 : (UInt8.ofNat le).toNat = le := Nat.mod_eq_of_lt hle
  have hjoin : offset / 256 * 256 + offset % 256 = offset := by omega
  simp only [plainCard, hp1, hp2, hp3, hjoin]

/-- A file of four octets is read whole, by either reader. -/
theorem fileReads_short :
    (∃ result w, readBinaryToEnd (plainCard [0x30, 0x02, 0x05, 0x00]) none () =
        some (result, w) ∧ ∀ bytes, result = .ok bytes → bytes = [0x30, 0x02, 0x05, 0x00]) ∧
    ∃ result w, readBinaryDerObject (plainCard [0x30, 0x02, 0x05, 0x00]) "EF.CardAccess" () =
        some (result, w) ∧
      ∀ bytes, result = .ok bytes → FirstObject [0x30, 0x02, 0x05, 0x00] bytes := by
  have hexact := fileReads_exact (plainCard_holds [0x30, 0x02, 0x05, 0x00]) "EF.CardAccess" ()
  refine ⟨hexact.1.mpr (by decide), hexact.2.1.mpr ?_⟩
  rintro ⟨tag, rest, hf, hmulti⟩
  obtain ⟨rfl, -⟩ := List.cons.inj hf
  exact absurd hmulti (by decide)

/-- **A file of one octet more than the cap comes back without it.** -/
theorem longFile_cut :
    Holds (plainCard (List.replicate 0x4001 0)) (List.replicate 0x4001 0) ∧
      readBinaryToEnd (plainCard (List.replicate 0x4001 0)) none () =
        some (.ok (List.replicate 0x4000 0), ()) ∧
      List.replicate 0x4000 (0 : UInt8) ≠ List.replicate 0x4001 0 := by
  refine ⟨plainCard_holds _, ?_, ?_⟩
  · obtain ⟨w, hread⟩ := readBinaryToEnd_honest (plainCard_holds (List.replicate 0x4001 0)) none ()
    have hcap : min (min ((none : Option Nat).getD maxCertBytes) maxCertBytes) 0x4001 = 0x4000 := by
      decide
    have hlen : (List.replicate 0x4000 (0 : UInt8)).length = 0x4000 := List.length_replicate
    have hfinish : (finish (List.replicate 0x4000 0) : Except (Pkcs15Error Unit) Bytes) =
        .ok (List.replicate 0x4000 0) := by
      have hnonempty : ¬ (List.replicate 0x4000 (0 : UInt8)).isEmpty = true := by
        rw [List.isEmpty_iff_length_eq_zero, hlen]
        decide
      rw [finish, if_neg hnonempty, if_neg (by rw [hlen]; decide)]
    rw [hread, List.take_replicate, hcap, hfinish]
  · intro hsame
    have hlen := congrArg List.length hsame
    rw [List.length_replicate, List.length_replicate] at hlen
    exact absurd hlen (by decide)

end FileRead

end RefineId
