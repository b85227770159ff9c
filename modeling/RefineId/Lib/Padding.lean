/-
  RefineId.Lib.Padding — marker-and-filler padding to whole blocks.
  ════════════════════════════════════════════════════════════════════════════

  The data, one marker, and as many fillers as the block needs.  The marker is the last
  element that is not a filler, so the padding comes off again whatever the data is.

  Main results:
    • `length_pad`    : the padded length is the next multiple of the block above the data's.
    • `unpad_pad`     : unpadding undoes padding.
    • `pad_injective` : different data pad to different blocks.
-/
import Mathlib.Tactic

namespace RefineId.Lib

section
variable {α : Type} (marker filler : α)

/-- How many fillers bring `n` up to a multiple of `block`. -/
def fillers (block n : Nat) : Nat := (block - n % block) % block

/-- The marker, then fillers up to the block boundary. -/
def pad (block : Nat) (data : List α) : List α :=
  data ++ marker :: List.replicate (fillers block (data.length + 1)) filler

/-- Skip the fillers at the end; what comes before the marker is the data.  Input without
    a marker there is handed back as it is. -/
def unpad [DecidableEq α] (data : List α) : List α :=
  let trailing := (data.reverse.takeWhile (· == filler)).length
  if data.length < trailing + 1 then data
  else
    let markerPos := data.length - (trailing + 1)
    if data[markerPos]? = some marker then data.take markerPos else data

theorem fillers_spec {block : Nat} (h : 0 < block) (n : Nat) :
    n + fillers block (n + 1) + 1 = (n / block + 1) * block := by
  have hdiv : block * (n / block) + n % block = n := Nat.div_add_mod n block
  have hlt : n % block < block := Nat.mod_lt n h
  have hmul : (n / block + 1) * block = block * (n / block) + block := by ring
  unfold fillers
  by_cases hlast : n % block + 1 = block
  · -- the marker fills the block
    have : (n + 1) % block = 0 := by
      have : n + 1 = block * (n / block + 1) := by rw [Nat.mul_add]; omega
      rw [this, Nat.mul_mod_right]
    rw [this, Nat.sub_zero, Nat.mod_self]
    omega
  · have : (n + 1) % block = n % block + 1 := by
      have : n + 1 = block * (n / block) + (n % block + 1) := by omega
      rw [this, Nat.mul_add_mod, Nat.mod_eq_of_lt (by omega)]
    rw [this, Nat.mod_eq_of_lt (by omega)]
    omega

theorem length_pad {block : Nat} (h : 0 < block) (data : List α) :
    (pad marker filler block data).length = (data.length / block + 1) * block := by
  rw [← fillers_spec h]
  simp only [pad, List.length_append, List.length_cons, List.length_replicate]
  omega

variable [DecidableEq α] {marker filler}

theorem takeWhile_fillers (hne : marker ≠ filler) (n : Nat) (rest : List α) :
    (List.replicate n filler ++ marker :: rest).takeWhile (· == filler)
      = List.replicate n filler := by
  induction n with
  | zero => simp [hne]
  | succ n ih => simp [List.replicate_succ, ih]

/-- **Unpadding undoes padding.** -/
theorem unpad_pad (hne : marker ≠ filler) (block : Nat) (data : List α) :
    unpad marker filler (pad marker filler block data) = data := by
  have htrail : ((pad marker filler block data).reverse.takeWhile (· == filler)).length
      = fillers block (data.length + 1) := by
    simp only [pad, List.reverse_append, List.reverse_cons, List.reverse_replicate,
      List.append_assoc, List.singleton_append]
    rw [takeWhile_fillers hne, List.length_replicate]
  have hlen : (pad marker filler block data).length
      = data.length + (fillers block (data.length + 1) + 1) := by
    simp [pad]
  unfold unpad
  rw [htrail, hlen]
  have hpos : data.length + (fillers block (data.length + 1) + 1)
      - (fillers block (data.length + 1) + 1) = data.length := by omega
  simp only [hpos]
  rw [if_neg (by omega), if_pos (by simp [pad])]
  simp [pad]

theorem pad_injective (hne : marker ≠ filler) (block : Nat) :
    Function.Injective (pad marker filler block) := by
  intro a b h
  rw [← unpad_pad hne block a, ← unpad_pad hne block b, h]

end

end RefineId.Lib
